import FactoryProxy.FileSystem.Basic

/-!
Contract: changes of the file system.

An action yields a result or a failure together with the file system after it. A
failing action keeps the changes it made before it failed.

Owns: actions, writing a file, making directories and links, and removal.
-/

namespace FactoryProxy.FileSystem

/-- A change of the file system that may fail with an `ε`. -/
abbrev Action (ε α : Type) := ExceptT ε (StateM FileSystem) α

namespace Action

/-- Looks at the file system without a change. -/
def inspect {ε α : Type} (question : FileSystem → Except ε α) : Action ε α :=
  fun files => (question files, files)

def restate {ε ε' α : Type} (explain : ε → ε') (action : Action ε α) : Action ε' α :=
  fun files =>
    match action files with
    | (.ok result, after) => (.ok result, after)
    | (.error failure, after) => (.error (explain failure), after)

end Action

/-- The file system with an entry put under a key. -/
def put (files : FileSystem) (key : FileKey) (entry : FileEntry) : FileSystem :=
  { files with entries := files.entries.insert key entry }

/-- The path without slashes at its end. -/
def withoutEndSlash (path : Path) : Path :=
  let trimmed := Text.trimEnd Path.isSlash path.text
  if trimmed.isEmpty && path.isAbsolute then ⟨"/"⟩ else ⟨trimmed⟩

def endsInSlash (path : Path) : Bool :=
  path.text.toList.getLast? == some '/'

/-- The key under which a written file is put. A path that ends in a slash names
no file. -/
def writingKey (files : FileSystem) (path : Path) : Except IoFailure FileKey :=
  if endsInSlash path then
    match files.locate false (withoutEndSlash path) with
    | .ok _ => .error .isADirectory
    | .error failure => .error failure
  else
    match files.locate true path with
    | .ok (.found key (.file _)) => .ok key
    | .ok (.found _ _) => .error .isADirectory
    | .ok (.vacant key) => .ok key
    | .ok (.vacantDirectory _) => .error .isADirectory
    | .error failure => .error failure

/-- Writes a file, in place of the former one if there is one. -/
def write (path : Path) (content : ByteArray) : Action IoFailure Unit :=
  fun files =>
    match files.writingKey path with
    | .ok key => (.ok (), files.put key (.file content))
    | .error failure => (.error failure, files)

/-- Puts an entry where nothing is yet. -/
def create (path : Path) (entry : FileEntry) : Action IoFailure Unit :=
  fun files =>
    match files.locate false path with
    | .ok (.vacant key) => (.ok (), files.put key entry)
    | .ok (.found _ _) => (.error .alreadyExists, files)
    | .ok (.vacantDirectory _) => (.error .notFound, files)
    | .error failure => (.error failure, files)

def createDirectory (path : Path) : Action IoFailure Unit :=
  create (withoutEndSlash path) .directory

def createLink (path : Path) (target : String) : Action IoFailure Unit :=
  if target.isEmpty then throw .notFound else create path (.link target)

/-- Makes the first of the directories, each of which is the parent of the one
before it. A directory that is there already is no failure. -/
def createChain : List Path → Action IoFailure Unit
  | [] => throw .notFound
  | path :: above => fun files =>
    if path.components.isEmpty then (.ok (), files)
    else
      match createDirectory path files with
      | (.ok _, made) => (.ok (), made)
      | (.error .notFound, _) =>
        match createChain above files with
        | (.ok _, made) =>
          match createDirectory path made with
          | (.ok _, whole) => (.ok (), whole)
          | (.error failure, _) =>
            if made.isDirectory path then (.ok (), made) else (.error failure, made)
        | (.error failure, made) => (.error failure, made)
      | (.error failure, _) =>
        if files.isDirectory path then (.ok (), files) else (.error failure, files)

/-- Makes a directory and the missing ones above it. -/
def createDirectories (path : Path) : Action IoFailure Unit :=
  createChain (path.ancestors (path.text.length + 2))

/-- The key lies at or below another. -/
def isWithin (above key : FileKey) : Bool :=
  above.isPrefixOf key

/-- Removes an entry and everything below it. -/
def remove (path : Path) : Action IoFailure Unit :=
  fun files =>
    match files.locate false path with
    | .ok (.found key _) =>
      (.ok (), { files with
        entries := files.entries.filter (fun entry => !isWithin key entry.1) })
    | .ok (.vacant _) => (.error .notFound, files)
    | .ok (.vacantDirectory _) => (.error .notFound, files)
    | .error failure => (.error failure, files)

end FactoryProxy.FileSystem
