import FactoryProxy.Generation
import FactoryProxy.Proofs.Container.Emission
import FactoryProxy.Proofs.Sequencing

/-!
Contract: the steps of a completed generation run.

Owns: what a completed run says about its steps, the container that a run into an empty
container leaves, and what a run plans.
-/

namespace FactoryProxy.Generation

open Sequencing

variable {settings : ResolvedSettings} {container described : Container}
  {files after : FileSystem}

/-- The steps of a run up to its description: the directory is opened, the classes
are selected, the artifacts are written and then all files are recorded. -/
structure Writes (settings : ResolvedSettings) (files after : FileSystem) (written : Written)
    (opened : FileSystem) (artifacts : List Artifact) : Prop where
  opens : Artifact.openDirectory settings.proxyDirectory files = (.ok (), opened)
  plans : plan opened settings = .ok (written.index, artifacts)
  persists :
    Artifact.persistAll settings.proxyDirectory artifacts opened = (.ok written.persisted, after)
  records :
    dependenciesOf after settings written.index artifacts written.persisted =
      .ok written.dependencies

theorem writeArtifacts_eq_ok {written : Written} :
    writeArtifacts settings files = (.ok written, after) ↔
      ∃ opened artifacts, Writes settings files after written opened artifacts := by
  unfold writeArtifacts
  constructor
  · intro ran
    obtain ⟨_, opened, opens, behindOpening⟩ := run_bind_eq_ok.mp ran
    obtain ⟨⟨index, artifacts⟩, planning, planned, behindPlan⟩ :=
      run_bind_eq_ok.mp behindOpening
    obtain ⟨persisted, writing, persists, behindWriting⟩ := run_bind_eq_ok.mp behindPlan
    obtain ⟨dependencies, recording, recorded, finished⟩ := run_bind_eq_ok.mp behindWriting
    obtain ⟨plans, samePlanning⟩ := run_inspect_eq_ok.mp planned
    obtain ⟨records, sameRecording⟩ := run_inspect_eq_ok.mp recorded
    rw [samePlanning] at persists
    rw [sameRecording] at finished
    cases finished
    exact ⟨opened, artifacts, opens, plans, persists, records⟩
  · rintro ⟨opened, artifacts, opens, plans, persists, records⟩
    obtain ⟨index, persisted, dependencies⟩ := written
    refine run_bind_eq_ok.mpr ⟨(), opened, opens, ?_⟩
    refine run_bind_eq_ok.mpr ⟨(index, artifacts), opened,
      run_inspect_eq_ok.mpr ⟨plans, rfl⟩, ?_⟩
    refine run_bind_eq_ok.mpr ⟨persisted, after, persists, ?_⟩
    refine run_bind_eq_ok.mpr ⟨dependencies, after, run_inspect_eq_ok.mpr ⟨records, rfl⟩, ?_⟩
    rfl

theorem generate_of_written {written : Written} (container : Container)
    (wrote : writeArtifacts settings files = (.ok written, after)) :
    generate settings container files = (describe settings written container, after) := by
  unfold generate
  rw [wrote]

theorem generate_of_unwritten {failure : Failure} (container : Container)
    (unwritten : writeArtifacts settings files = (.error failure, after)) :
    generate settings container files = ((container, .error failure), after) := by
  unfold generate
  rw [unwritten]

/-- A run with a report is one that completes. -/
theorem generate_of_report {report : Report}
    (completed : (generate settings container files).1.2 = .ok report) :
    generate settings container files =
      (((generate settings container files).1.1, .ok report),
        (generate settings container files).2) :=
  Prod.ext (Prod.ext rfl completed) rfl

/-- A completed run wrote everything and then described it. -/
theorem generate_eq_ok {report : Report}
    (ran : generate settings container files = ((described, .ok report), after)) :
    ∃ written, writeArtifacts settings files = (.ok written, after) ∧
      describe settings written container = (described, .ok report) := by
  rcases wrote : writeArtifacts settings files with ⟨outcome, middle⟩
  cases outcome with
  | error failure =>
      rw [generate_of_unwritten container wrote] at ran
      cases ran
  | ok written =>
      rw [generate_of_written container wrote] at ran
      obtain ⟨isDescribed, rfl⟩ := Prod.mk.inj ran
      exact ⟨written, rfl, isDescribed⟩

/-- A description fails exactly as its emission does. -/
theorem describe_eq_error {written : Written} {failure : Failure} :
    describe settings written container = (described, .error failure) ↔
      container.emit written.persisted = (described, .error failure) := by
  unfold describe
  rcases container.emit written.persisted with ⟨emitted, outcome⟩
  cases outcome with
  | error cause => simp
  | ok definitions => simp

/-- A plan indexes the source files, resolves the targets and selects the classes. -/
theorem plan_eq_ok {index : ClassIndex} {artifacts : List Artifact}
    (planned : plan files settings = .ok (index, artifacts)) :
    ClassIndex.build files settings.sourceDirectories settings.exclude = .ok index ∧
      ∃ targets, TargetTypes.resolve index settings.scanFor = .ok targets ∧
        artifacts = Artifact.all index targets settings.proxyNamespace := by
  unfold plan at planned
  obtain ⟨built, isBuilt, resolving⟩ := bind_eq_ok.mp planned
  obtain ⟨targets, resolved, finished⟩ := bind_eq_ok.mp resolving
  cases finished
  exact ⟨isBuilt, targets, resolved, rfl⟩

/-- What a run into an empty container describes. -/
def describedBy (settings : ResolvedSettings) (written : Written) : Container where
  parameters := ∅
  definitions := Container.numberedFrom 0 (Container.factoriesOf written.persisted)
  dependencies := (∅ : DependencySet).extend written.dependencies
  initializers := [⟨settings.proxyDirectory, settings.proxyNamespace⟩]

/-- What a run into an empty container reports. -/
def reportOf (written : Written) : Report where
  factories := written.persisted.filter (fun artifact => artifact.className.isSome)
  definitions := (Container.factoriesOf written.persisted).length
  indexedClasses := written.index.size
  scannedFiles := written.index.files.length

theorem describe_empty (settings : ResolvedSettings) (written : Written) :
    describe settings written ∅ = (describedBy settings written, .ok (reportOf written)) := by
  unfold describe
  rw [Container.emit_empty]
  rfl

/-- A completed run into an empty container has gone through all its steps. -/
theorem generate_empty_eq_ok {report : Report}
    (ran : generate settings ∅ files = ((described, .ok report), after)) :
    ∃ written opened artifacts, Writes settings files after written opened artifacts ∧
      described = describedBy settings written := by
  obtain ⟨written, wrote, isDescribed⟩ := generate_eq_ok ran
  obtain ⟨opened, artifacts, writes⟩ := writeArtifacts_eq_ok.mp wrote
  rw [describe_empty] at isDescribed
  exact ⟨written, opened, artifacts, writes, (Prod.mk.inj isDescribed).1.symm⟩

/-! ## What a run plans -/

/-- The index and the artifacts of a run that opens the directory and plans. -/
def planned (settings : ResolvedSettings) (files : FileSystem) :
    Except Failure (ClassIndex × List Artifact) :=
  plan (Artifact.openDirectory settings.proxyDirectory files).2 settings

/-- The artifacts of a run, none if it fails before. -/
def plannedArtifacts (settings : ResolvedSettings) (files : FileSystem) : List Artifact :=
  match planned settings files with
  | .ok (_, artifacts) => artifacts
  | .error _ => []

/-- The files scanned by a run, none if it fails before. -/
def plannedSources (settings : ResolvedSettings) (files : FileSystem) : List Path :=
  match planned settings files with
  | .ok (index, _) => index.files
  | .error _ => []

theorem planned_eq {opened : FileSystem} {index : ClassIndex} {artifacts : List Artifact}
    (opens : Artifact.openDirectory settings.proxyDirectory files = (.ok (), opened))
    (plans : plan opened settings = .ok (index, artifacts)) :
    artifacts = plannedArtifacts settings files ∧ index.files = plannedSources settings files := by
  unfold plannedArtifacts plannedSources planned
  rw [opens, plans]
  exact ⟨rfl, rfl⟩

/-! ## A small run -/

/-- Two classes below the target `T`. -/
def twoClasses : FileSystem where
  entries := .ofList [
    (["src"], .directory),
    (["src", "a.php"], .file "<?php class A extends T{}".toUTF8),
    (["src", "b.php"], .file "<?php class B extends T{}".toUTF8)]
  current := []

def scanForT : ResolvedSettings := ⟨["T"], [⟨"src"⟩], "G", ⟨"p"⟩, []⟩

set_option maxRecDepth 100000 in
theorem run_on_two_classes :
    (generate scanForT ∅ twoClasses).1.2 = .ok {
      factories := [
        ⟨"A___GeneratedFactoryInterface", "G\\A___GeneratedFactoryInterface", some "A",
          ⟨"p/A___GeneratedFactoryInterface.php"⟩⟩,
        ⟨"B___GeneratedFactoryInterface", "G\\B___GeneratedFactoryInterface", some "B",
          ⟨"p/B___GeneratedFactoryInterface.php"⟩⟩]
      definitions := 2
      indexedClasses := 2
      scannedFiles := 2 } := by
  decide +kernel

end FactoryProxy.Generation
