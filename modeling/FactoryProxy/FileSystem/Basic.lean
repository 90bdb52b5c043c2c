import FactoryProxy.FileSystem.IoFailure
import FactoryProxy.Path.Join
import FactoryProxy.Text.Join

/-!
Contract: a file system as a value.

Entries are kept under keys, the names on the way from the root. A path leads to
a key: segments are followed one by one from the root or the current directory,
symbolic links are replaced by their targets, and `..` goes to the directory
above the one that was reached.

Owns: `FileSystem`, the place a path leads to, and reading.
Does not own: changes and the walk through directories.
-/

namespace FactoryProxy

/-- The names on the way from the root. -/
abbrev FileKey := List String

inductive FileEntry where
  | file (content : ByteArray)
  | directory
  | link (target : String)

/-- Entries by key and the directory at which relative paths start. -/
structure FileSystem where
  entries : OrderedMap FileKey FileEntry
  current : FileKey

/-- What a path leads to: an entry, or a name that is free in a directory. A slash
behind a free name asks for a directory. -/
inductive Place where
  | found (key : FileKey) (entry : FileEntry)
  | vacant (key : FileKey)
  | vacantDirectory (key : FileKey)

namespace FileSystem

/-- The entry under a key. The root is always a directory. -/
def lookup (files : FileSystem) (key : FileKey) : Option FileEntry :=
  match key with
  | [] => some .directory
  | _ :: _ => files.entries.get? key

/-! ## Following a path -/

def segmentsOf (text : String) : List String :=
  Text.splitBy Path.isSlash text

/-- The directory at which a path starts. -/
def startOf (text : String) (here : FileKey) : FileKey :=
  if (Path.mk text).isAbsolute then [] else here

def nameLimit : Nat := 255

def pathLimit : Nat := 4095

/-- The most links followed for one path. -/
def linkLimit : Nat := 40

/-- The number of segments of a link's target. -/
def targetLength : FileEntry → Nat
  | .link target => (segmentsOf target).length
  | _ => 0

/-- The number of segments that no target of a link exceeds. -/
def longestTarget (files : FileSystem) : Nat :=
  (files.entries.entries.map (fun entry => targetLength entry.2)).foldr max 0

theorem targetLength_le_foldr {entries : List (FileKey × FileEntry)} {key : FileKey}
    {entry : FileEntry} (member : (key, entry) ∈ entries) :
    targetLength entry ≤ (entries.map (fun entry => targetLength entry.2)).foldr max 0 := by
  induction entries with
  | nil => simp at member
  | cons head tail inductionHypothesis =>
      simp only [List.map_cons, List.foldr_cons]
      rcases List.mem_cons.mp member with isHead | inTail
      · rw [← isHead]
        exact Nat.le_max_left _ _
      · exact Nat.le_trans (inductionHypothesis inTail) (Nat.le_max_right _ _)

theorem length_segmentsOf_le {files : FileSystem} {key : FileKey} {target : String}
    (found : files.lookup key = some (.link target)) :
    (segmentsOf target).length ≤ files.longestTarget := by
  unfold lookup at found
  split at found
  · simp at found
  · rename_i head tail
    obtain ⟨entry, isFound, isLink⟩ := Option.map_eq_some_iff.mp found
    have member := List.mem_of_find?_eq_some isFound
    have bounded : targetLength entry.2 ≤ files.longestTarget := targetLength_le_foldr member
    rw [isLink] at bounded
    exact bounded

/-- Follows segments from a directory. A link at the end is followed if
`followLast` is set or a slash stands behind it. -/
def follow (files : FileSystem) (followLast : Bool) (links : Nat) (here : FileKey)
    (segments : List String) : Except IoFailure Place :=
  match segments with
  | [] => .ok (.found here .directory)
  | segment :: rest =>
    if segment = "" ∨ segment = "." then files.follow followLast links here rest
    else if segment = ".." then files.follow followLast links here.dropLast rest
    else if nameLimit < segment.utf8ByteSize then .error .nameTooLong
    else
      let key := here ++ [segment]
      match isThere : files.lookup key with
      | none =>
        if rest.isEmpty then .ok (.vacant key)
        else if rest.all String.isEmpty then .ok (.vacantDirectory key)
        else .error .notFound
      | some .directory => files.follow followLast links key rest
      | some (.file content) =>
        if rest.isEmpty then .ok (.found key (.file content)) else .error .notADirectory
      | some (.link target) =>
        if rest.isEmpty && !followLast then .ok (.found key (.link target))
        else
          match links with
          | 0 => .error .tooManyLinks
          | links + 1 =>
            have := length_segmentsOf_le isThere
            files.follow followLast links (startOf target here) (segmentsOf target ++ rest)
termination_by links * (files.longestTarget + 1) + segments.length
decreasing_by
  all_goals
    simp only [List.length_cons, List.length_append, Nat.succ_mul]
    omega

def locate (files : FileSystem) (followLast : Bool) (path : Path) : Except IoFailure Place :=
  if path.text.toList.contains '\x00' then .error .zeroInPath
  else if path.text.isEmpty then .error .notFound
  else if pathLimit < path.text.utf8ByteSize then .error .nameTooLong
  else
    files.follow followLast linkLimit (startOf path.text files.current) (segmentsOf path.text)

/-! ## Reading -/

/-- The key and the entry that a path leads to, links followed. -/
def entryAt (files : FileSystem) (path : Path) : Except IoFailure (FileKey × FileEntry) :=
  match files.locate true path with
  | .ok (.found key entry) => .ok (key, entry)
  | .ok (.vacant _) => .error .notFound
  | .ok (.vacantDirectory _) => .error .notFound
  | .error failure => .error failure

def isDirectory (files : FileSystem) (path : Path) : Bool :=
  match files.entryAt path with
  | .ok (_, .directory) => true
  | _ => false

def isFile (files : FileSystem) (path : Path) : Bool :=
  match files.entryAt path with
  | .ok (_, .file _) => true
  | _ => false

def pathExists (files : FileSystem) (path : Path) : Bool :=
  (files.entryAt path).isOk

def read (files : FileSystem) (path : Path) : Except IoFailure ByteArray :=
  match files.entryAt path with
  | .ok (_, .file content) => .ok content
  | .ok (_, .directory) => .error .isADirectory
  | .ok (_, .link _) => .error .tooManyLinks
  | .error failure => .error failure

/-- The text of a file in UTF-8. -/
def readText (files : FileSystem) (path : Path) : Except IoFailure String :=
  match files.read path with
  | .ok content =>
    match String.fromUTF8? content with
    | some text => .ok text
    | none => .error .notText
  | .error failure => .error failure

/-- The path of a key from the root. -/
def pathOf (key : FileKey) : Path :=
  if key.isEmpty then ⟨"/"⟩ else ⟨Text.concat (key.map (fun name => "/" ++ name))⟩

/-- The absolute path without links that leads to the same entry. -/
def canonical (files : FileSystem) (path : Path) : Except IoFailure Path :=
  (files.entryAt path).map (fun found => pathOf found.1)

/-- The absolute path of the current directory. -/
def currentPath (files : FileSystem) : Path := pathOf files.current

/-- The name of a key directly below a directory. -/
def nameBelow? (directory key : FileKey) : Option String :=
  match key.getLast? with
  | some name => if key.dropLast == directory then some name else none
  | none => none

/-- The names and entries in a directory, in order. -/
def children (files : FileSystem) (directory : FileKey) : List (String × FileEntry) :=
  files.entries.entries.filterMap (fun entry =>
    (nameBelow? directory entry.1).map (fun name => (name, entry.2)))

/-- The names below a directory on the way to a key. -/
def namesBelow (directory key : FileKey) : List String :=
  if directory.isPrefixOf key then key.drop directory.length else []

/-- Everything below a directory: paths that start with its text and whether they
lead to a directory. -/
def listing (files : FileSystem) (directory : Path) : Except IoFailure (List (Path × Bool)) :=
  match files.entryAt directory with
  | .ok (key, .directory) =>
    .ok (files.entries.entries.filterMap fun entry =>
      match namesBelow key entry.1 with
      | [] => none
      | names =>
        let isDirectory := match entry.2 with
          | .directory => true
          | _ => false
        some (names.foldl Path.child directory, isDirectory))
  | .ok _ => .error .notADirectory
  | .error failure => .error failure

end FileSystem

end FactoryProxy
