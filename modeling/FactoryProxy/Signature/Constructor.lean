import FactoryProxy.Signature.Parameter

/-!
Contract: constructors.

Owns: visibility, constructors and the rule for optional parameters: a parameter
is optional if it and every later one can be left out of a call.
-/

namespace FactoryProxy

inductive Visibility where
  | publicAccess
  | protectedAccess
  | privateAccess
deriving DecidableEq, Repr

structure Constructor where
  visibility : Visibility
  parameters : List Parameter
deriving DecidableEq, Repr

namespace Constructor

/-- The parameters marked from the last to the first, and whether all of them
can be left out. -/
def markOptional : List Parameter → List Parameter × Bool
  | [] => ([], true)
  | parameter :: rest =>
    let (marked, trailing) := markOptional rest
    let optional := trailing && parameter.omittable
    ({ parameter with optional := optional } :: marked, optional)

/-- The constructor with the optional parameters marked. -/
def ofParameters (visibility : Visibility) (parameters : List Parameter) : Constructor :=
  ⟨visibility, (markOptional parameters).1⟩

/-- The parameters that the caller of a factory supplies, in order. -/
def builtinParameters (constructor : Constructor) : List Parameter :=
  constructor.parameters.filter Parameter.isBuiltin

/-- The parameters that the container supplies, in order. -/
def delegatedParameters (constructor : Constructor) : List Parameter :=
  constructor.parameters.filter (fun parameter => !parameter.isBuiltin)

end Constructor

end FactoryProxy
