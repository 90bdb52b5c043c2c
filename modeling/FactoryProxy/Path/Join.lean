import FactoryProxy.Path.Basic
import FactoryProxy.Text.Blank

/-!
Contract: paths made from paths.

Owns: joining, the parent, the chain of ancestors, the file name and its
extension. All of them keep the text of the parts that remain as it is written.
-/

namespace FactoryProxy.Path

/-- The path below `base`. An absolute right side stands alone; otherwise one
slash joins the two unless the left side is empty or ends in one. -/
def join (base below : Path) : Path :=
  if below.isAbsolute || base.text.isEmpty then below
  else if base.text.toList.getLast? == some '/' then ⟨base.text ++ below.text⟩
  else ⟨base.text ++ "/" ++ below.text⟩

/-- The file of that name in a directory. -/
def child (directory : Path) (name : String) : Path :=
  directory.join ⟨name⟩

/-- A segment after the first slash that is no component. -/
def isSilent (segment : List Char) : Bool :=
  segment == [] || segment == ['.']

/-- Segments written after a text, each behind a slash. -/
def appendSegments (start : List Char) (segments : List (List Char)) : Path :=
  ⟨String.ofList (start ++ segments.flatMap (fun segment => '/' :: segment))⟩

/-- The path without its last component and the slashes and `.` segments before
it. The root and the empty path have no parent. -/
def parent? (path : Path) : Option Path :=
  match Text.pieces isSlash path.text.toList with
  | [] => none
  | first :: rest =>
    match Text.dropTail isSilent rest with
    | [] =>
      if first.isEmpty then none else some ⟨""⟩
    | last :: others =>
      let above := Text.dropTail isSilent (last :: others).dropLast
      if first.isEmpty && above.isEmpty then some ⟨"/"⟩
      else some (appendSegments first above)

/-- The path and its ancestors, nearest first, at most `limit` of them. -/
def ancestors : Nat → Path → List Path
  | 0, _ => []
  | limit + 1, path =>
    path ::
      match path.parent? with
      | none => []
      | some above => ancestors limit above

def fileName? (path : Path) : Option String :=
  match path.components.getLast? with
  | some (.normal name) => some name
  | _ => none

/-- What follows the last dot of the file name, unless the name starts with that
dot or has none. -/
def extension? (path : Path) : Option String :=
  path.fileName?.bind fun name =>
    match Text.cutAtFirst (· == '.') name.toList.reverse with
    | none => none
    | some (after, before) =>
      if before.isEmpty then none else some (String.ofList after.reverse)

example : (Path.mk "/a//b///c").parent? = some ⟨"/a//b"⟩ := by decide +kernel
example : (Path.mk "./c").parent? = some ⟨"."⟩ := by decide +kernel
example : (Path.mk "//a").parent? = some ⟨"/"⟩ := by decide +kernel
example : (Path.mk "/").parent? = none := by decide +kernel
example : (Path.mk "a").join ⟨""⟩ = ⟨"a/"⟩ := by decide +kernel
example : (Path.mk "x/.php").extension? = none := by decide +kernel
example : (Path.mk "x/a.b.php").extension? = some "php" := by decide +kernel

end FactoryProxy.Path
