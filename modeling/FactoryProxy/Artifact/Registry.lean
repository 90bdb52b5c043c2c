import FactoryProxy.Artifact.Basic
import FactoryProxy.Dependency.Basic
import FactoryProxy.Failure
import FactoryProxy.FileSystem.Change

/-!
Contract: generated files in the proxy directory.

Owns: the place of an artifact, opening the directory, and writing artifacts. What
artifacts were made from is recorded only after all of them are written.
-/

namespace FactoryProxy

/-- An artifact that has been written. -/
structure PersistedArtifact where
  name : String
  qualifiedName : String
  className : Option String
  path : Path
deriving DecidableEq, Repr

namespace Artifact

open FileSystem (Action)

/-- The file that holds the interface of a name. -/
def pathIn (directory : Path) (name : String) : Path :=
  directory.child (name ++ "." ++ sourceExtension)

/-- Makes sure that the proxy directory exists. -/
def openDirectory (directory : Path) : Action Failure Unit :=
  fun files =>
    match FileSystem.createDirectories directory files with
    | (.ok _, made) => (.ok (), made)
    | (.error cause, made) =>
      if made.isDirectory directory then (.ok (), made)
      else (.error (.proxyDirectory directory cause), made)

/-- Writes an artifact over a former file of its name. -/
def persist (directory : Path) (artifact : Artifact) : Action Failure PersistedArtifact :=
  let path := pathIn directory artifact.name
  (do
    FileSystem.write path artifact.source.toUTF8
    return ⟨artifact.name, artifact.qualified, artifact.className, path⟩
    : Action IoFailure PersistedArtifact).restate (.unwritableFile path)

/-- Writes artifacts in order up to the first failure. -/
def persistAll (directory : Path) (artifacts : List Artifact) :
    Action Failure (List PersistedArtifact) :=
  artifacts.mapM (persist directory)

/-- Records the files that artifacts depend on, and then where they are. A file
that cannot be read leaves the files before it recorded. -/
def record (files : FileSystem) (artifacts : List Artifact)
    (persisted : List PersistedArtifact) (set : DependencySet) :
    DependencySet × Except Failure Unit :=
  match set.addFiles files (artifacts.flatMap (fun artifact => artifact.dependencies.toList)) with
  | (recorded, .ok _) =>
    (persisted.foldl (fun set artifact => set.addArtifact artifact.path) recorded, .ok ())
  | (recorded, .error cause) => (recorded, .error (.io cause))

/-- Writes artifacts and then records them in a set. If an artifact cannot be written,
nothing is recorded. -/
def persistRecorded (directory : Path) (artifacts : List Artifact) (set : DependencySet) :
    StateM FileSystem (DependencySet × Except Failure (List PersistedArtifact)) :=
  fun files =>
    match persistAll directory artifacts files with
    | (.ok persisted, after) =>
      let (recorded, result) := record after artifacts persisted set
      ((recorded, result.map (fun _ => persisted)), after)
    | (.error failure, after) => ((set, .error failure), after)

end Artifact

end FactoryProxy
