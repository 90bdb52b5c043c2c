import FactoryProxy.FileSystem.Basic
import FactoryProxy.Settings.Resolved

/-!
Contract: settings files.

Owns: settings together with the place of their file, the parameters of a run,
and the search for the file in the current directory and those above it.
-/

namespace FactoryProxy

structure LoadedSettings where
  path : Path
  settings : Settings
deriving DecidableEq, Repr

namespace LoadedSettings

/-- The parameter that names the root of the application. -/
def rootParameter : String := "appDir"

/-- The directory of the file, below which relative paths stand. -/
def baseDirectory (loaded : LoadedSettings) : Path :=
  loaded.path.parent?.getD ⟨""⟩

/-- The parameters of the file, the root of the application unless it is among
them, and the given ones over all of them. -/
def parameters (loaded : LoadedSettings) (overrides : List (String × String)) :
    Settings.Parameters :=
  overrides.foldl (fun map entry => map.insert entry.1 entry.2)
    (loaded.settings.parameters.insertNew rootParameter loaded.baseDirectory.text)

def resolve (loaded : LoadedSettings) (parameters : Settings.Parameters)
    (contributions : List Contribution) : Except Failure ResolvedSettings :=
  loaded.settings.resolve loaded.baseDirectory parameters contributions

def read (files : FileSystem) (path : Path) : Except Failure LoadedSettings := do
  let text ← (files.readText path).mapError (fun cause =>
    .configuration (.unreadableSettings path cause))
  let settings ← Settings.ofText text
  return ⟨(files.canonical path).toOption.getD path, settings⟩

def searchLimit : Nat := 10

/-- Reads the given file, or else the nearest one at or above the current
directory. -/
def find (files : FileSystem) (explicit : Option Path) : Except Failure LoadedSettings :=
  match explicit with
  | some path => read files path
  | none =>
    let candidates := (files.currentPath.ancestors searchLimit).map
      (fun directory => directory.child Settings.fileName)
    match candidates.find? files.isFile with
    | some path => read files path
    | none => .error (.configuration (.absentSettings Settings.fileName searchLimit))

end LoadedSettings

end FactoryProxy
