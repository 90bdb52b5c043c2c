import FactoryProxy.ClassIndex.Scan
import FactoryProxy.Container.Emission
import FactoryProxy.Selection
import FactoryProxy.Settings.Resolved

/-!
Contract: one generation run.

A run indexes the source files, selects classes, writes the artifacts and then
describes them in a container. A failure before the description leaves the
container as it was.

Owns: the run, its report and the test whether a former run is still good.
-/

namespace FactoryProxy.Generation

open FileSystem (Action)

structure Report where
  factories : List PersistedArtifact
  definitions : Nat
  indexedClasses : Nat
  scannedFiles : Nat
deriving DecidableEq, Repr

/-- What is written before the container changes. -/
structure Written where
  index : ClassIndex
  persisted : List PersistedArtifact
  dependencies : DependencySet
deriving DecidableEq, Repr

/-- The index and the artifacts of the settings. -/
def plan (files : FileSystem) (settings : ResolvedSettings) :
    Except Failure (ClassIndex × List Artifact) := do
  let index ← ClassIndex.build files settings.sourceDirectories settings.exclude
  let targets ← TargetTypes.resolve index settings.scanFor
  return (index, Artifact.all index targets settings.proxyNamespace)

/-- The files of a run with their digests. -/
def dependenciesOf (files : FileSystem) (settings : ResolvedSettings) (index : ClassIndex)
    (artifacts : List Artifact) (persisted : List PersistedArtifact) :
    Except Failure DependencySet := do
  let (recorded, result) := Artifact.record files artifacts persisted ∅
  result
  let scanned ← (recorded.setScanned files index.files).mapError Failure.io
  return scanned.setFingerprint settings.fingerprint

/-- Writes the artifacts. The proxy directory is made before anything is read. -/
def writeArtifacts (settings : ResolvedSettings) : Action Failure Written := do
  Artifact.openDirectory settings.proxyDirectory
  let (index, artifacts) ← Action.inspect (fun files => plan files settings)
  let persisted ← Artifact.persistAll settings.proxyDirectory artifacts
  let dependencies ← Action.inspect (fun files =>
    dependenciesOf files settings index artifacts persisted)
  return ⟨index, persisted, dependencies⟩

/-- The container with the written artifacts described, and the report. -/
def describe (settings : ResolvedSettings) (written : Written) (container : Container) :
    Container × Except Failure Report :=
  match container.emit written.persisted with
  | (emitted, .error failure) => (emitted, .error failure)
  | (emitted, .ok definitions) =>
    ((emitted.addDependencies written.dependencies).prependInitializer
        ⟨settings.proxyDirectory, settings.proxyNamespace⟩,
      .ok {
        factories := written.persisted.filter (fun artifact => artifact.className.isSome)
        definitions := definitions
        indexedClasses := written.index.size
        scannedFiles := written.index.files.length })

/-- A run for a container: the container after it and the report or the failure. -/
def generate (settings : ResolvedSettings) (container : Container) :
    StateM FileSystem (Container × Except Failure Report) :=
  fun files =>
    match writeArtifacts settings files with
    | (.ok written, after) => (describe settings written container, after)
    | (.error failure, after) => ((container, .error failure), after)

/-- The container describes a run with these settings, and nothing that the run
has read or written is different now. -/
def isFresh (files : FileSystem) (settings : ResolvedSettings) (previous : Container) :
    Except Failure Bool :=
  if previous.dependencies.fingerprint != settings.fingerprint then .ok false
  else
    (SourceFiles.find files settings.sourceDirectories settings.exclude).map
      (fun scan => !previous.dependencies.isExpired files scan)

end FactoryProxy.Generation
