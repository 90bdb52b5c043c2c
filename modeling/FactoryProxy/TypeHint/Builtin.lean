import FactoryProxy.Text.Blank
import FactoryProxy.Text.Folding
import FactoryProxy.Text.Split

/-!
Contract: type hints that need no class.

A hint is a text of names joined by `?`, `|`, `&` and parentheses. It is builtin
if at least one name is left when the joining characters are taken as cuts and
every one of them is the name of a builtin type.

Owns: the list of builtin types and the test on a hint.
-/

namespace FactoryProxy.TypeHint

def builtinNames : List String :=
  ["int", "float", "string", "bool", "array", "callable", "iterable", "object", "mixed",
    "void", "null", "false", "true", "never", "resource"]

/-- The text names a builtin type, in any ASCII case and with blanks around it. -/
def isBuiltinName (name : String) : Bool :=
  builtinNames.contains (Text.fold (Text.trimBlank name))

/-- The characters that join the names of a hint. -/
def isJoint (c : Char) : Bool :=
  c == '|' || c == '&' || c == '(' || c == ')' || c == '?'

/-- The names of a hint in order. -/
def atoms (hint : String) : List String :=
  ((Text.splitBy isJoint hint).map Text.trimBlank).filter (fun atom => !atom.isEmpty)

def isBuiltin (hint : String) : Bool :=
  !(atoms hint).isEmpty && (atoms hint).all isBuiltinName

example : isBuiltin "? Int | (string&bool)" = true := by decide +kernel
example : isBuiltin "(|)" = false := by decide +kernel
example : isBuiltin "int|Foo" = false := by decide +kernel

end FactoryProxy.TypeHint
