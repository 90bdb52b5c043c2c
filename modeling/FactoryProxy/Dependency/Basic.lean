import FactoryProxy.Digest.Sha256
import FactoryProxy.FileSystem.Basic

/-!
Contract: what generated files were made from.

Every recorded file stands under its path with the digest of its content. A set
is expired if a fresh look at the file system shows anything else.

Owns: `DependencySet`, recording, merging and the test for expiry.
-/

namespace FactoryProxy

/-- Recorded files with their digests, scanned files with theirs, generated files
that have to exist, and the fingerprint of the settings. -/
structure DependencySet where
  files : OrderedMap Path String
  scanned : OrderedMap Path String
  artifacts : List Path
  fingerprint : String
deriving DecidableEq, Repr

namespace DependencySet

def empty : DependencySet := ⟨∅, ∅, [], ""⟩

instance : EmptyCollection DependencySet := ⟨empty⟩

/-- The digest of the content of a file. -/
def digestOf (files : FileSystem) (path : Path) : Except IoFailure String :=
  (files.read path).map Digest.ofBytes

/-- Records a file. A file that is recorded keeps its digest and is not read. -/
def addFile (set : DependencySet) (files : FileSystem) (path : Path) :
    Except IoFailure DependencySet :=
  if set.files.contains path then .ok set
  else (digestOf files path).map (fun digest =>
    { set with files := set.files.insertNew path digest })

/-- Records files in order up to the first failure. -/
def addFiles (set : DependencySet) (files : FileSystem) :
    List Path → DependencySet × Except IoFailure Unit
  | [] => (set, .ok ())
  | path :: rest =>
    match set.addFile files path with
    | .ok recorded => recorded.addFiles files rest
    | .error failure => (set, .error failure)

def setScanned (set : DependencySet) (files : FileSystem) (paths : List Path) :
    Except IoFailure DependencySet :=
  (paths.mapM (fun path => (digestOf files path).map (fun digest => (path, digest)))).map
    (fun entries => { set with scanned := OrderedMap.ofListLast entries })

def addArtifact (set : DependencySet) (path : Path) : DependencySet :=
  if set.artifacts.any (fun recorded => recorded.same path) then set
  else { set with artifacts := set.artifacts ++ [path] }

def setFingerprint (set : DependencySet) (fingerprint : String) : DependencySet :=
  { set with fingerprint := fingerprint }

/-- The set with another one merged into it. Present digests stay; scanned files
and the fingerprint of the other one count if it has any. -/
def extend (set other : DependencySet) : DependencySet :=
  let merged : DependencySet := {
    files := set.files.union other.files
    scanned := if other.scanned.isEmpty then set.scanned else other.scanned
    artifacts := set.artifacts
    fingerprint := if other.fingerprint.isEmpty then set.fingerprint else other.fingerprint }
  other.artifacts.foldl addArtifact merged

/-! ## Expiry -/

/-- The two lists name the same paths in the same order. -/
def samePaths : List Path → List Path → Bool
  | [], [] => true
  | left :: lefts, right :: rights => left.same right && samePaths lefts rights
  | _, _ => false

def isUnchanged (files : FileSystem) (entry : Path × String) : Bool :=
  match digestOf files entry.1 with
  | .ok digest => digest == entry.2
  | .error _ => false

/-- A scan finds other files, a generated file is missing, or the content of a
recorded file is not the recorded one. -/
def isExpired (set : DependencySet) (files : FileSystem) (scan : List Path) : Bool :=
  !samePaths (OrderedSet.ofList scan).toList set.scanned.keys
    || !set.artifacts.all files.isFile
    || !set.scanned.entries.all (isUnchanged files)
    || !set.files.entries.all (isUnchanged files)

/-! ## Equality up to the spelling of paths -/

/-- The two maps have the same paths with the same digests. -/
def sameDigests (left right : OrderedMap Path String) : Bool :=
  samePaths left.keys right.keys && left.values == right.values

def same (left right : DependencySet) : Bool :=
  sameDigests left.files right.files && sameDigests left.scanned right.scanned
    && samePaths left.artifacts right.artifacts && left.fingerprint == right.fingerprint

end DependencySet

end FactoryProxy
