import FactoryProxy.FileSystem.Basic

/-!
Contract: all files below a directory.

Symbolic links are followed. A link that leads nowhere ends the walk with a
failure, and so does a link to a directory that the walk is in.

Owns: `WalkFailure` and the walk.
Does not own: which of the files count.
-/

namespace FactoryProxy

inductive WalkFailure where
  | unreachable (path : Path) (cause : IoFailure)
  | linkLoop (link ancestor : Path)
deriving DecidableEq, Repr

namespace WalkFailure

def message : WalkFailure → String
  | unreachable path cause =>
    path.text ++ ": IO error for operation on " ++ path.text ++ ": " ++ cause.message
  | linkLoop link ancestor =>
    "File system loop found: " ++ link.text ++ " points to an ancestor " ++ ancestor.text

end WalkFailure

namespace FileSystem

/-- What a walk does at an entry of a directory. -/
inductive Step where
  | take
  | enter (key : FileKey)

/-- The step at an entry, given the open directories, innermost first. -/
def stepAt (files : FileSystem) (openDirectories : List (Path × FileKey)) (path : Path)
    (key : FileKey) : FileEntry → Except WalkFailure Step
  | .file _ => .ok .take
  | .directory => .ok (.enter key)
  | .link _ =>
    match files.entryAt path with
    | .error cause => .error (.unreachable path cause)
    | .ok (target, .directory) =>
      match openDirectories.find? (fun level => level.2 == target) with
      | some level => .error (.linkLoop path level.1)
      | none => .ok (.enter target)
    | .ok _ => .ok .take

/-- The files below a directory, given the open directories with it innermost.
`depth` bounds how deep directories are entered. -/
def filesIn (files : FileSystem) : (depth : Nat) → (openDirectories : List (Path × FileKey)) →
    (directory : Path) → (key : FileKey) → Except WalkFailure (List Path)
  | 0, _, _, _ => .ok []
  | depth + 1, openDirectories, directory, key => do
    let inner ← (files.children key).mapM fun child => do
      let path := directory.child child.1
      match ← files.stepAt openDirectories path (key ++ [child.1]) child.2 with
      | .take => pure [path]
      | .enter target => filesIn files depth ((path, target) :: openDirectories) path target
    pure inner.flatten

/-- A number of directories that no walk exceeds: between two links a walk goes
down directories that differ, and the directories entered through links differ. -/
def depthLimit (files : FileSystem) : Nat :=
  (files.entries.size + 2) * (files.entries.size + 2)

/-- All files below a directory, at paths that start with its text. -/
def filesBelow (files : FileSystem) (directory : Path) : Except WalkFailure (List Path) :=
  match files.entryAt directory with
  | .ok (key, .directory) =>
    files.filesIn files.depthLimit [(directory, key)] directory key
  | .ok _ => .ok []
  | .error cause => .error (.unreachable directory cause)

end FileSystem

end FactoryProxy
