import FactoryProxy.TypeHint.Builtin

/-!
Contract: parameters of methods.

Owns: the declared part of a parameter, the parameter of a constructor with its
optionality, and the two roles of constructor parameters.
-/

namespace FactoryProxy

/-- A parameter as it is declared. Type and default are source texts. -/
structure ParameterDeclaration where
  name : String
  typeHint : Option String
  defaultValue : Option String
  byReference : Bool
  variadic : Bool
deriving DecidableEq, Repr

/-- A constructor parameter; callers may leave out an optional one. -/
structure Parameter extends ParameterDeclaration where
  optional : Bool
deriving DecidableEq, Repr

/-- Who supplies the argument of a constructor parameter. -/
inductive ParameterRole where
  /-- The caller of the factory. -/
  | builtin
  /-- The container. -/
  | delegated
deriving DecidableEq, Repr

namespace Parameter

/-- A call without this argument has a value for it. -/
def omittable (parameter : Parameter) : Bool :=
  parameter.defaultValue.isSome || parameter.variadic

def defaultsToNull (parameter : Parameter) : Bool :=
  match parameter.defaultValue with
  | none => false
  | some value => Text.sameFolded (Text.trimBlank value) "null"

/-- An untyped parameter and one with a builtin type come from the caller. -/
def role (parameter : Parameter) : ParameterRole :=
  match parameter.typeHint with
  | none => .builtin
  | some hint => if TypeHint.isBuiltin hint then .builtin else .delegated

def isBuiltin (parameter : Parameter) : Bool :=
  parameter.role == .builtin

end Parameter

end FactoryProxy
