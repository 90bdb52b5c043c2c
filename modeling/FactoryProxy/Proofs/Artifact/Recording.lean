import FactoryProxy.Artifact.Registry
import FactoryProxy.Proofs.Dependency.Recording

/-!
Contract: what a set has recorded after artifacts were persisted.

All artifacts are written before anything is recorded. Then the files they depend on are
recorded one by one.

Owns: the set after artifacts that could not be persisted, and when it is the one before.
-/

namespace FactoryProxy

open Sequencing

namespace Artifact

open DependencySet (Adds)

variable {directory : Path} {artifacts : List Artifact} {set left : DependencySet}
  {files after : FileSystem} {persisted : List PersistedArtifact} {failure : Failure}

/-! ## Persisting that fails -/

/-- The files that artifacts depend on, artifact by artifact. -/
def sources (artifacts : List Artifact) : List Path :=
  artifacts.flatMap (fun artifact => artifact.dependencies.toList)

theorem persistRecorded_of_unwritten
    (unwritten : persistAll directory artifacts files = (.error failure, after)) :
    persistRecorded directory artifacts set files = ((set, .error failure), after) := by
  unfold persistRecorded
  rw [unwritten]

theorem persistRecorded_of_written
    (wrote : persistAll directory artifacts files = (.ok persisted, after)) :
    persistRecorded directory artifacts set files =
      (((record after artifacts persisted set).1,
        (record after artifacts persisted set).2.map (fun _ => persisted)), after) := by
  unfold persistRecorded
  rw [wrote]

/-- A record fails as the recording of the sources does. -/
theorem record_eq_error_iff : record files artifacts persisted set = (left, .error failure) ↔
    ∃ cause, failure = .io cause ∧
      set.addFiles files (sources artifacts) = (left, .error cause) := by
  unfold record sources
  rcases set.addFiles files _ with ⟨recorded, outcome⟩
  cases outcome with
  | ok _ => simp
  | error cause =>
      constructor
      · intro fails
        cases fails
        exact ⟨cause, rfl, rfl⟩
      · rintro ⟨other, rfl, same⟩
        cases same
        rfl

/-- Where artifacts cannot be persisted, the set stays as it was if one of them cannot be
written. Otherwise the sources before the one that cannot be read are recorded, so the set
stays as it was exactly if all of these had been recorded before. -/
theorem set_after_failed_persisting
    (failed : (persistRecorded directory artifacts set files).1 = (left, .error failure)) :
    ((persistAll directory artifacts files).1 = .error failure ∧ left = set) ∨
      ∃ persisted after before path behind cause,
        persistAll directory artifacts files = (.ok persisted, after) ∧
        sources artifacts = before ++ path :: behind ∧
        left.files.contains path = false ∧
        DependencySet.digestOf after path = .error cause ∧ failure = .io cause ∧
        Adds after before set left ∧
        (left = set ↔ ∀ former ∈ before, set.files.contains former = true) := by
  rcases wrote : persistAll directory artifacts files with ⟨outcome, after⟩
  cases outcome with
  | error unwritten =>
      rw [persistRecorded_of_unwritten wrote] at failed
      obtain ⟨isSet, isFailure⟩ := Prod.mk.inj failed
      exact .inl ⟨isFailure, isSet.symm⟩
  | ok persisted =>
      rw [persistRecorded_of_written wrote] at failed
      obtain ⟨isLeft, outcome⟩ := Prod.mk.inj failed
      have fails : record after artifacts persisted set = (left, .error failure) :=
        Prod.ext isLeft (map_eq_error.mp outcome)
      obtain ⟨cause, isIo, stops⟩ := record_eq_error_iff.mp fails
      obtain ⟨before, path, behind, split, completes, isNew, isUnread⟩ :=
        DependencySet.addFiles_eq_error_iff.mp stops
      exact .inr ⟨persisted, after, before, path, behind, cause, rfl, split, isNew, isUnread,
        isIo, DependencySet.adds_of_addFiles completes,
        DependencySet.eq_iff_recorded completes⟩

/-! ## A source that is missing behind another one -/

/-- A source file and a directory for artifacts. -/
def oneSource : FileSystem where
  entries := .ofList [
    (["a.php"], .file "<?php class A extends T{}".toUTF8),
    (["p"], .directory)]
  current := []

/-- Two factories, of which the second one depends on a file that is missing. -/
def secondUnread : List Artifact := [
  factory "A" [] "G" (OrderedSet.ofList [⟨"a.php"⟩]),
  factory "B" [] "G" (OrderedSet.ofList [⟨"b.php"⟩])]

/-- The set with the first source recorded. -/
def firstRecorded : DependencySet where
  files := .ofList [(⟨"a.php"⟩, Digest.ofText "<?php class A extends T{}")]
  scanned := ∅
  artifacts := []
  fingerprint := ""

set_option maxRecDepth 100000 in
theorem persisting_stops_at_second :
    (persistRecorded ⟨"p"⟩ secondUnread ∅ oneSource).1 =
      (firstRecorded, .error (.io .notFound)) := by
  decide +kernel

theorem firstRecorded_ne_empty : firstRecorded ≠ ∅ := by
  decide +kernel

/-- Artifacts that cannot be persisted may leave a file recorded. -/
theorem failed_persisting_records_source :
    ¬ ∀ (directory : Path) (artifacts : List Artifact) (set left : DependencySet)
        (files : FileSystem) (failure : Failure),
      (persistRecorded directory artifacts set files).1 = (left, .error failure) →
        left = set := by
  intro unchanged
  exact firstRecorded_ne_empty (unchanged _ _ _ _ _ _ persisting_stops_at_second)

/-- The artifacts are written, and a source that was not recorded is before the missing
one. -/
theorem new_source_before_missing_one :
    ∃ persisted after before path behind,
      persistAll ⟨"p"⟩ secondUnread oneSource = (.ok persisted, after) ∧
      sources secondUnread = before ++ path :: behind ∧
      Adds after before ∅ firstRecorded ∧
      ¬ ∀ former ∈ before, (∅ : DependencySet).files.contains former = true := by
  rcases set_after_failed_persisting persisting_stops_at_second with
    ⟨_, unchanged⟩ |
    ⟨persisted, after, before, path, behind, _, wrote, split, _, _, _, adds, exactly⟩
  · exact absurd unchanged firstRecorded_ne_empty
  · exact ⟨persisted, after, before, path, behind, wrote, split, adds,
      fun recorded => firstRecorded_ne_empty (exactly.mpr recorded)⟩

end Artifact

end FactoryProxy
