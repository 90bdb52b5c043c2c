import FactoryProxy.Php.Grammar.Expression
import FactoryProxy.Text.Blank

/-!
Contract: the parameters of a function.

A parameter that starts with a visibility declares a property too. Only then a
reference mark belongs to the name, and only then hooks may follow.
-/

namespace FactoryProxy.Php.Grammar

open Reader

/-- Characters that may stand before the name proper. -/
def isNameMark (c : Char) : Bool :=
  c == '&' || c == '$' || Text.isBlank c

/-- The type hint before a variable, if there is one. -/
def hintIfAny : Reader (Option String) := do
  if ← sees .wide (fun candidate => candidate.symbol?.any ["&", "...", "$"].contains) then
    return none
  return some (← typeHint .wide)

/-- A default with its exact text. -/
def defaultValue : Reader Expression := do
  symbol .wide "="
  skip .wide
  return .compound (← record (expression .wide)).2

/-- The name of a parameter with the marks before it. -/
structure NamedParameter where
  text : String
  byReference : Bool
  variadic : Bool

/-- A reference mark together with what it refers to. -/
def referenced : Reader NamedParameter := do
  skip .wide
  return ⟨← textOf (do symbol .nothing "&"; operand .wide), true, false⟩

def named : Reader NamedParameter := do
  let byReference ← maybe (symbol .wide "&")
  let variadic ← maybe (symbol .wide "...")
  skip .wide
  return ⟨← textOf variableName, byReference, variadic⟩

def parameter : Reader ParameterSyntax := do
  attributes
  let promoted ← maybe (do visibility; discard (maybe (keyword .wide "readonly")))
  let typeText ← hintIfAny
  let parameterName ← if promoted then referenced <|> named else named
  let value ← (return some (← defaultValue)) <|> return none
  if promoted then discard (maybe (discard (group .wide .curly Content.body)))
  return {
    name := Text.trimStart isNameMark parameterName.text
    typeHint := typeText
    defaultValue := value
    byReference := parameterName.byReference
    variadic := parameterName.variadic }

/-- The parameters of a function with commas between them. -/
def parameters : Reader (List ParameterSyntax) :=
  collect do
    let found ← parameter
    discard (maybe (symbol .wide ","))
    return found

end FactoryProxy.Php.Grammar
