import FactoryProxy.Php.Expression

/-!
Contract: the declarations of a source file as they are written.

Of a file only namespaces, imports and class-like declarations are kept, of a
class only its heritage and its constructor. Names are texts as they stand in
the file; what they denote depends on the scope.

Owns: the types of declarations.
Does not own: their reading and the meaning of names.
-/

namespace FactoryProxy

inductive ClassKind where
  | classKind
  | interfaceKind
  | traitKind
  | enumKind
deriving DecidableEq, Repr

namespace Php

/-- A parameter. The type hint is its exact text. -/
structure ParameterSyntax where
  name : String
  typeHint : Option String
  defaultValue : Option Expression
  byReference : Bool
  variadic : Bool
deriving Repr

/-- A constructor with its last visibility modifier in lower case, if any. -/
structure ConstructorSyntax where
  visibility : Option String
  parameters : List ParameterSyntax
deriving Repr

/-- A declaration at a line. `parents` are the names behind `extends` and
`interfaces` those behind `implements`. -/
structure ClassSyntax where
  kind : ClassKind
  name : String
  isAbstract : Bool
  parents : List String
  interfaces : List String
  constructor : Option ConstructorSyntax
  line : Nat
deriving Repr

/-- One imported name. A marked clause imports a function or a constant. -/
structure ImportClause where
  marked : Bool
  target : String
  localName : Option String
deriving DecidableEq, Repr

/-- An import declaration. In a group all clauses stand below `above`. -/
structure ImportSyntax where
  marked : Bool
  above : Option String
  clauses : List ImportClause
deriving DecidableEq, Repr

/-- A statement that matters for the classes of a file. -/
inductive Statement where
  /-- A namespace that holds for the rest of the list. -/
  | namespaceStart (name : String)
  | namespaceBlock (name : String) (body : List Statement)
  | imports (declared : ImportSyntax)
  | declaration (declared : ClassSyntax)
  /-- A class without a name. -/
  | nameless
deriving Repr

end Php

end FactoryProxy
