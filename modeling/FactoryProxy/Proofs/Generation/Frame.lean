import FactoryProxy.Proofs.FileSystem.Growing
import FactoryProxy.Proofs.FileSystem.Making
import FactoryProxy.Proofs.Generation.Repeating

/-!
Contract: what a run touches.

A run makes the proxy directory and then writes artifacts, the planned ones in order up to
the first that cannot be written. Nothing else in it changes the file system. Writing
follows links, so the files that may change are those to which the paths of artifacts
lead, wherever they are.

Owns: the artifacts written by a run that fails, the failures before the first write, and
the entries that a run leaves alone.
-/

namespace FactoryProxy

open Sequencing

/-! ## Writing up to a failure -/

/-- The failure is one of a run that has not begun to write. -/
def Failure.precedesWriting : Failure → Bool
  | .configuration _ => true
  | .unknownTarget _ => true
  | .ambiguousClass _ _ _ => true
  | .unreadableSource _ _ => true
  | .proxyDirectory _ _ => true
  | _ => false

namespace Artifact

open FileSystem (WritesAll)

variable {directory : Path} {artifact : Artifact} {files after : FileSystem} {failure : Failure}

/-- An artifact that cannot be written changes nothing. -/
theorem persist_eq_error (failed : persist directory artifact files = (.error failure, after)) :
    after = files ∧ ∃ cause, failure = .unwritableFile (pathIn directory artifact.name) cause := by
  cases isKey : files.writingKey (pathIn directory artifact.name) with
  | ok key =>
      have wrote := FileSystem.write_of_writingKey isKey artifact.source.toUTF8
      rw [persist_of_write artifact wrote] at failed
      cases failed
  | error cause =>
      have unwritten : FileSystem.write (pathIn directory artifact.name) artifact.source.toUTF8
          files = (.error cause, files) := by
        unfold FileSystem.write
        rw [isKey]
      unfold persist FileSystem.Action.restate at failed
      rw [run_bind_error unwritten] at failed
      obtain ⟨isFailure, same⟩ := Prod.mk.inj failed
      exact ⟨same.symm, cause, (Except.error.inj isFailure).symm⟩

/-- Whether or not all artifacts can be written, those before the first that cannot are
written, and no other file is. -/
theorem persistAll_writes (directory : Path) (artifacts : List Artifact) (files : FileSystem) :
    (∃ done, done <+: artifacts ∧
      WritesAll (writesIn directory done) files (persistAll directory artifacts files).2) ∧
    ∀ failure, (persistAll directory artifacts files).1 = .error failure →
      failure.precedesWriting = false := by
  unfold persistAll
  induction artifacts generalizing files with
  | nil =>
      refine ⟨⟨[], List.prefix_rfl, .nil⟩, ?_⟩
      intro failure failed
      cases failed
  | cons head tail inductionHypothesis =>
      rw [List.mapM_cons]
      rcases persists : persist directory head files with ⟨outcome, middle⟩
      cases outcome with
      | error cause =>
          -- The run stops in front of the first artifact that cannot be written.
          obtain ⟨rfl, ioCause, rfl⟩ := persist_eq_error persists
          rw [run_bind_error persists]
          refine ⟨⟨[], List.nil_prefix, .nil⟩, ?_⟩
          intro failure failed
          rw [← Except.error.inj failed]
          rfl
      | ok recorded =>
          obtain ⟨wrote, _⟩ := persist_eq_ok persists
          obtain ⟨⟨done, isPrefix, wroteDone⟩, fails⟩ := inductionHypothesis middle
          have written : WritesAll (writesIn directory (head :: done)) files
              (tail.mapM (persist directory) middle).2 := .cons wrote wroteDone
          rw [run_bind_ok persists]
          rcases persistsTail : tail.mapM (persist directory) middle with ⟨outcomeTail, last⟩
          rw [persistsTail] at written fails
          cases outcomeTail with
          | error cause =>
              rw [run_bind_error persistsTail]
              exact ⟨⟨head :: done, List.cons_prefix_cons.mpr ⟨rfl, isPrefix⟩, written⟩, fails⟩
          | ok others =>
              rw [run_bind_ok persistsTail]
              refine ⟨⟨head :: done, List.cons_prefix_cons.mpr ⟨rfl, isPrefix⟩, written⟩, ?_⟩
              intro failure failed
              cases failed

end Artifact

namespace Generation

open FileSystem (Action Made WritesAll wayTo withoutEndSlash)

variable {settings : ResolvedSettings} {directory : Path} {artifacts done : List Artifact}
  {files opened after : FileSystem} {key : FileKey} {failure : Failure}

/-! ## Touched entries -/

/-- Under the key is the source of an artifact whose path leads there. -/
def HoldsArtifact (after : FileSystem) (directory : Path) (artifacts : List Artifact)
    (key : FileKey) : Prop :=
  ∃ artifact ∈ artifacts,
    after.entryAt (Artifact.pathIn directory artifact.name) =
      .ok (key, .file artifact.source.toUTF8)

/-- Entries stay as they are, except for files that hold artifacts now. What is new holds an
artifact or is a directory on the way to the proxy directory. -/
structure OnlyTouches (directory : Path) (artifacts : List Artifact)
    (files after : FileSystem) : Prop where
  present : ∀ key entry, files.lookup key = some entry →
    after.lookup key = some entry ∨
      (∃ content, entry = .file content) ∧ HoldsArtifact after directory artifacts key
  absent : ∀ key entry, files.lookup key = none → after.lookup key = some entry →
    (entry = .directory ∧
      ∃ path ∈ wayTo directory, after.entryAt (withoutEndSlash path) = .ok (key, .directory)) ∨
    HoldsArtifact after directory artifacts key

theorem holdsArtifact_of_writes {former : Path × ByteArray}
    (member : former ∈ Artifact.writesIn directory done)
    (found : after.entryAt former.1 = .ok (key, .file former.2)) :
    HoldsArtifact after directory done key := by
  obtain ⟨artifact, isArtifact, rfl⟩ := List.mem_map.mp member
  exact ⟨artifact, isArtifact, found⟩

/-- Made directories and then written artifacts are all that is touched. -/
theorem onlyTouches_of_writes (made : Made (wayTo directory) files opened)
    (wrote : WritesAll (Artifact.writesIn directory done) opened after) :
    OnlyTouches directory done files after where
  present := by
    intro key entry isThere
    have isOpened := made.stays isThere
    rcases wrote.lookup_cases key with unchanged | ⟨former, member, found⟩
    · rw [unchanged]
      exact .inl isOpened
    · refine .inr ⟨?_, holdsArtifact_of_writes member found⟩
      obtain ⟨left, isLeft, rewritten⟩ := wrote.grows.stays isOpened
      rw [FileSystem.lookup_of_entryAt found] at isLeft
      obtain rfl := Option.some.inj isLeft
      cases rewritten with
      | same => exact ⟨_, rfl⟩
      | file old _ => exact ⟨old, rfl⟩
  absent := by
    intro key entry wasFree isThere
    rcases wrote.lookup_cases key with unchanged | ⟨former, member, found⟩
    · rw [unchanged] at isThere
      obtain ⟨isDirectory, path, isAbove, found⟩ := made.origin wasFree isThere
      obtain ⟨left, isLeft, rewritten⟩ := wrote.grows.leads found
      cases rewritten
      exact .inl ⟨isDirectory, path, isAbove, isLeft⟩
    · exact .inr (holdsArtifact_of_writes member found)

theorem HoldsArtifact.of_subset (subset : done ⊆ artifacts)
    (holds : HoldsArtifact after directory done key) :
    HoldsArtifact after directory artifacts key := by
  obtain ⟨artifact, member, found⟩ := holds
  exact ⟨artifact, subset member, found⟩

theorem OnlyTouches.of_subset (subset : done ⊆ artifacts)
    (touches : OnlyTouches directory done files after) :
    OnlyTouches directory artifacts files after where
  present := fun key entry isThere =>
    (touches.present key entry isThere).imp_right (And.imp_right (.of_subset subset))
  absent := fun key entry wasFree isThere =>
    (touches.absent key entry wasFree isThere).imp_right (.of_subset subset)

/-! ## Runs that may fail -/

theorem dependenciesOf_eq_error {index : ClassIndex} {persisted : List PersistedArtifact}
    (failed : dependenciesOf files settings index artifacts persisted = .error failure) :
    failure.precedesWriting = false := by
  unfold dependenciesOf Artifact.record at failed
  rcases recorded : DependencySet.addFiles ∅ files
    (artifacts.flatMap (fun artifact => artifact.dependencies.toList)) with ⟨set, outcome⟩
  rw [recorded] at failed
  cases outcome with
  | error cause =>
      rw [← Except.error.inj failed]
      rfl
  | ok _ =>
      dsimp only at failed
      rcases scanned : (persisted.foldl (fun set artifact => set.addArtifact artifact.path)
        set).setScanned files index.files with cause | whole
      · rw [scanned] at failed
        rw [← Except.error.inj failed]
        rfl
      · rw [scanned] at failed
        cases failed

theorem generate_snd (settings : ResolvedSettings) (container : Container) (files : FileSystem) :
    (generate settings container files).2 = (writeArtifacts settings files).2 := by
  unfold generate
  rcases writeArtifacts settings files with ⟨outcome, after⟩
  cases outcome with
  | ok written => rfl
  | error failure => rfl

/-- A run writes nothing, or it writes what it has planned and then fails in no other way
than by writing or recording. -/
theorem writeArtifacts_cases (settings : ResolvedSettings) (files : FileSystem) :
    (writeArtifacts settings files).2 =
        (Artifact.openDirectory settings.proxyDirectory files).2 ∨
      (writeArtifacts settings files).2 =
          (Artifact.persistAll settings.proxyDirectory (plannedArtifacts settings files)
            (Artifact.openDirectory settings.proxyDirectory files).2).2 ∧
        ∀ failure, (writeArtifacts settings files).1 = .error failure →
          failure.precedesWriting = false := by
  unfold writeArtifacts
  rcases opens : Artifact.openDirectory settings.proxyDirectory files with ⟨outcome, opened⟩
  cases outcome with
  | error failure =>
      rw [run_bind_error opens]
      exact .inl rfl
  | ok _ =>
      rw [run_bind_ok opens, run_inspect_bind]
      cases plans : plan opened settings with
      | error failure => exact .inl rfl
      | ok both =>
          obtain ⟨index, artifacts⟩ := both
          obtain ⟨_, stops⟩ := Artifact.persistAll_writes settings.proxyDirectory artifacts opened
          obtain ⟨leaves, fails⟩ := run_then_inspect
            (Artifact.persistAll settings.proxyDirectory artifacts)
            (fun persisted files => dependenciesOf files settings index artifacts persisted)
            (fun persisted dependencies => Written.mk index persisted dependencies) opened
          rw [← (planned_eq opens plans).1]
          refine .inr ⟨leaves, fun failure failed => ?_⟩
          rcases fails failure failed with unwritten | ⟨persisted, unrecorded⟩
          · exact stops failure unwritten
          · exact dependenciesOf_eq_error unrecorded

/-- A run for an empty container fails only where it fails before its description. -/
theorem generate_empty_error
    (failed : (generate settings ∅ files).1.2 = .error failure) :
    (writeArtifacts settings files).1 = .error failure := by
  rcases wrote : writeArtifacts settings files with ⟨outcome, after⟩
  cases outcome with
  | error cause =>
      rw [generate_of_unwritten ∅ wrote] at failed
      rw [Except.error.inj failed]
  | ok written =>
      rw [generate_of_written ∅ wrote, describe_empty] at failed
      cases failed

/-- A completed run has written all its artifacts. -/
theorem holdsArtifact_of_report {report : Report}
    (completed : (generate settings ∅ files).1.2 = .ok report) :
    ∀ artifact ∈ plannedArtifacts settings files, ∃ key content,
      (generate settings ∅ files).2.entryAt
          (Artifact.pathIn settings.proxyDirectory artifact.name) = .ok (key, .file content) ∧
        HoldsArtifact (generate settings ∅ files).2 settings.proxyDirectory
          (plannedArtifacts settings files) key := by
  obtain ⟨written, opened, artifacts, writes, _⟩ :=
    generate_empty_eq_ok (generate_of_report completed)
  rw [← (planned_eq writes.opens writes.plans).1]
  intro artifact member
  obtain ⟨key, writer, isWriter, found, isWritten⟩ :=
    Artifact.entryAt_artifact writes.persists member
  exact ⟨key, _, found, writer, isWriter, isWritten⟩

/-- Whatever a run gives, it touches only its artifacts, and none of them if it fails before
it writes. A run that completes has written them all. -/
theorem run_touches_only_artifacts (settings : ResolvedSettings) (files : FileSystem) :
    OnlyTouches settings.proxyDirectory (plannedArtifacts settings files) files
        (generate settings ∅ files).2 ∧
      (∀ failure, (generate settings ∅ files).1.2 = .error failure →
        failure.precedesWriting = true →
          OnlyTouches settings.proxyDirectory [] files (generate settings ∅ files).2) ∧
      ∀ report, (generate settings ∅ files).1.2 = .ok report →
        ∀ artifact ∈ plannedArtifacts settings files, ∃ key content,
          (generate settings ∅ files).2.entryAt
              (Artifact.pathIn settings.proxyDirectory artifact.name) =
            .ok (key, .file content) ∧
          HoldsArtifact (generate settings ∅ files).2 settings.proxyDirectory
            (plannedArtifacts settings files) key := by
  have made := Artifact.made_openDirectory settings.proxyDirectory files
  have onlyOpened : OnlyTouches settings.proxyDirectory [] files
      (Artifact.openDirectory settings.proxyDirectory files).2 := onlyTouches_of_writes made .nil
  rw [← and_assoc]
  refine ⟨?_, fun _ completed => holdsArtifact_of_report completed⟩
  rw [generate_snd]
  rcases writeArtifacts_cases settings files with unwritten | ⟨wrote, stops⟩
  · rw [unwritten]
    exact ⟨onlyOpened.of_subset (List.nil_subset _), fun _ _ _ => onlyOpened⟩
  · obtain ⟨⟨done, isPrefix, wroteDone⟩, _⟩ := Artifact.persistAll_writes
      settings.proxyDirectory (plannedArtifacts settings files)
      (Artifact.openDirectory settings.proxyDirectory files).2
    rw [← wrote] at wroteDone
    refine ⟨(onlyTouches_of_writes made wroteDone).of_subset isPrefix.subset, ?_⟩
    intro failure failed early
    rw [stops failure (generate_empty_error failed)] at early
    cases early

def scanForU : ResolvedSettings := ⟨["U"], [⟨"src"⟩], "G", ⟨"p"⟩, []⟩

set_option maxRecDepth 100000 in
/-- The run for an unknown target has made the proxy directory and nothing else. -/
theorem unknown_target_touches_no_file :
    (generate scanForU ∅ twoClasses).1.2 = .error (.unknownTarget "U") ∧
      twoClasses.isDirectory ⟨"p"⟩ = false ∧
      (generate scanForU ∅ twoClasses).2.isDirectory ⟨"p"⟩ = true ∧
      OnlyTouches ⟨"p"⟩ [] twoClasses (generate scanForU ∅ twoClasses).2 := by
  have failed : (generate scanForU ∅ twoClasses).1.2 = .error (.unknownTarget "U") := by
    decide +kernel
  have isMissing : twoClasses.isDirectory ⟨"p"⟩ = false := by decide +kernel
  have isMade : (generate scanForU ∅ twoClasses).2.isDirectory ⟨"p"⟩ = true := by decide +kernel
  exact ⟨failed, isMissing, isMade,
    (run_touches_only_artifacts scanForU twoClasses).2.1 _ failed rfl⟩

/-- One class below the target `T`, and in the proxy directory a link from the file of the
marker to a file outside. -/
def linkedNotes : FileSystem where
  entries := .ofList [
    (["src"], .directory),
    (["src", "a.php"], .file "<?php class A extends T{}".toUTF8),
    (["notes.txt"], .file "notes".toUTF8),
    (["p"], .directory),
    (["p", "IGeneratedFactory.php"], .link "../notes.txt")]
  current := []

/-- The content of the file under a key. -/
def contentAt? (files : FileSystem) (key : FileKey) : Option ByteArray :=
  match files.lookup key with
  | some (.file content) => some content
  | _ => none

set_option maxRecDepth 100000 in
/-- Through a link a run changes a file whose path is that of no artifact. -/
theorem run_touches_linked_file :
    ¬ ∀ (settings : ResolvedSettings) (files : FileSystem) (key : FileKey) (content : ByteArray),
      contentAt? files key = some content →
        (∀ artifact ∈ plannedArtifacts settings files,
          (files.currentPath.join
              (Artifact.pathIn settings.proxyDirectory artifact.name)).components ≠
            (FileSystem.pathOf key).components) →
          contentAt? (generate settings ∅ files).2 key = some content := by
  intro unchanged
  have isElsewhere : ∀ artifact ∈ plannedArtifacts scanForT linkedNotes,
      (linkedNotes.currentPath.join
          (Artifact.pathIn scanForT.proxyDirectory artifact.name)).components ≠
        (FileSystem.pathOf ["notes.txt"]).components := by
    decide +kernel
  have isChanged : contentAt? (generate scanForT ∅ linkedNotes).2 ["notes.txt"] ≠
      some "notes".toUTF8 := by
    decide +kernel
  exact isChanged (unchanged scanForT linkedNotes _ _ rfl isElsewhere)

end Generation

end FactoryProxy
