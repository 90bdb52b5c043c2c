import FactoryProxy.Command.Places

/-!
Contract: the program on the real file system.

The places that a command looks at are copied into a file system value, the
command runs on that value, and what it has changed is written back.

Owns: copying, writing back and the entry point. Decides nothing.
-/

namespace FactoryProxy.Main

/-- The copied part of the file system and the keys that have been visited. -/
structure Copy where
  files : FileSystem
  visited : List FileKey

abbrev Copying := StateT Copy IO

def textOf (key : FileKey) : String :=
  (FileSystem.pathOf key).text

def keep (key : FileKey) (entry : FileEntry) : Copying Unit :=
  modify (fun copy => { copy with files := copy.files.put key entry })

/-- The key of the place that a text leads to in the real file system. -/
def realKey? (text : String) : IO (Option FileKey) := do
  try
    let real ← IO.FS.realPath text
    return some ((FileSystem.segmentsOf real.toString).filter (fun name => !name.isEmpty))
  catch _ => return none

mutual

/-- Copies what stands under a key without links on its way. -/
partial def copyEntry (key : FileKey) : Copying Unit := do
  if (← get).visited.contains key then return
  modify (fun copy => { copy with visited := key :: copy.visited })
  let path ← IO.FS.realPath (textOf key)
  if ← path.isDir then
    keep key .directory
    for child in ← path.readDir do
      copyPath key [child.fileName]
  else
    keep key (.file (← IO.FS.readBinFile path))

/-- Copies what segments lead to from a directory, with the links on the way. -/
partial def copyPath (here : FileKey) (segments : List String) : Copying Unit := do
  match segments with
  | [] => copyEntry here
  | segment :: rest =>
    if segment.isEmpty || segment == "." then copyPath here rest
    else if segment == ".." then copyPath here.dropLast rest
    else
      let key := here ++ [segment]
      match ← realKey? (textOf key) with
      | none =>
        -- A link that leads nowhere is listed in its directory all the same.
        let present ← (try
            let path ← IO.FS.realPath (textOf here)
            return (← path.readDir).any (fun child => child.fileName == segment)
          catch _ => return false)
        if present then keep key (.link "/no/such/target")
      | some real =>
        if real != key then keep key (.link (textOf real))
        copyAbove real
        if rest.isEmpty then copyEntry real else copyPath real rest

/-- Copies the directories above a key without what they hold. -/
partial def copyAbove (key : FileKey) : Copying Unit := do
  match key.dropLast with
  | [] => return
  | above =>
    if ((← get).files.lookup above).isNone then keep above .directory
    copyAbove above

end

def copyPlace (path : Path) : Copying Unit := do
  let files := (← get).files
  copyPath (FileSystem.startOf path.text files.current) (FileSystem.segmentsOf path.text)

/-- Copies the places of a request, which are asked for several times because
copied files name further places. -/
def copyPlaces (request : Command.Request) : Copying Unit := do
  for _ in [1, 2, 3] do
    let files := (← get).files
    for place in Command.places files request do
      copyPlace place

/-- Writes the entries that differ from the former ones. -/
def writeBack (before after : FileSystem) : IO Unit := do
  for (key, entry) in after.entries.entries do
    match entry, before.lookup key with
    | .directory, none => IO.FS.createDirAll (textOf key)
    | .file content, some (.file former) =>
      if content != former then IO.FS.writeBinFile (textOf key) content
    | .file content, _ => IO.FS.writeBinFile (textOf key) content
    | _, _ => pure ()

/-- The part of the file system that the arguments make the program look at. -/
def copyForArguments (environment : Option String) (arguments : List String) :
    IO FileSystem := do
  let current := (← realKey? ".").getD []
  let copying : Copying Unit := do
    copyAbove current
    keep current .directory
    match Command.parse environment arguments with
    | .ok request => copyPlaces request
    | .error _ => pure ()
  let (_, copy) ← copying.run ⟨⟨∅, current⟩, []⟩
  return copy.files

/-- The name of the variable that names a settings file. -/
def environmentVariable : String := "AUTOFACTORY_CONFIG"

end FactoryProxy.Main

/-- Runs the program with its arguments and gives its exit code. -/
def main (arguments : List String) : IO UInt32 := do
  let environment ← IO.getEnv FactoryProxy.Main.environmentVariable
  let before ← FactoryProxy.Main.copyForArguments environment arguments
  let (output, after) := FactoryProxy.Command.run environment arguments before
  FactoryProxy.Main.writeBack before after
  IO.print output.stdout
  IO.eprint output.stderr
  return UInt32.ofNat output.code
