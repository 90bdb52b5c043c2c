import FactoryProxy.Text.WordCharacter

/-!
Contract: texts with references to parameters.

A reference is a name between two percent signs, and two percent signs side by
side stand for one. A percent sign that starts neither is ordinary text. The
text is read once from left to right.

Owns: the parts of a template and their reading.
Does not own: the values of parameters.
-/

namespace FactoryProxy.Settings

inductive TemplatePart where
  | character (c : Char)
  | percentSign
  | reference (name : String)
deriving DecidableEq, Repr

def isNameCharacter (c : Char) : Bool :=
  c == '.' || c == '-' || Text.isWordCharacter c

/-- The name before the next percent sign and what stands behind that sign. -/
def closedName? (characters : List Char) : Option (List Char × List Char) :=
  let name := characters.takeWhile isNameCharacter
  match characters.drop name.length with
  | '%' :: rest => some (name, rest)
  | _ => none

theorem length_closedName?_lt {characters name rest : List Char}
    (found : closedName? characters = some (name, rest)) :
    rest.length < characters.length := by
  unfold closedName? at found
  dsimp only at found
  split at found
  · rename_i dropped
    simp only [Option.some.injEq, Prod.mk.injEq] at found
    have := congrArg List.length dropped
    simp only [List.length_drop, List.length_cons, found.2] at this
    omega
  · simp at found

/-- The parts of a template in order. -/
def partsOf (characters : List Char) : List TemplatePart :=
  match characters with
  | [] => []
  | c :: rest =>
    if c = '%' then
      match found : closedName? rest with
      | none => .character c :: partsOf rest
      | some (name, behind) =>
        have := length_closedName?_lt found
        (if name.isEmpty then .percentSign else .reference (String.ofList name)) ::
          partsOf behind
    else .character c :: partsOf rest
termination_by characters.length

example : partsOf "a%b%%%".toList =
    [.character 'a', .reference "b", .percentSign] := by decide +kernel
example : partsOf "%a b%".toList =
    [.character '%', .character 'a', .character ' ', .character 'b', .character '%'] := by
  decide +kernel

end FactoryProxy.Settings
