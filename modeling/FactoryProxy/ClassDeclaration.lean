import FactoryProxy.Name.Basic
import FactoryProxy.Path.Basic
import FactoryProxy.Php.Syntax
import FactoryProxy.Signature.Constructor

/-!
Contract: class-like declarations with full names.

Owns: `ClassDeclaration`, its key among all spellings of its name and the names
it refers to directly.
Does not own: what other declarations say about those names.
-/

namespace FactoryProxy

/-- A declaration in a file. Names are full and have no outer separators. For an
interface `interfaces` are the interfaces it extends and there is no parent. -/
structure ClassDeclaration where
  name : String
  kind : ClassKind
  isAbstract : Bool
  parent : Option String
  interfaces : List String
  constructor : Option Constructor
  file : Path
  line : Nat
deriving DecidableEq, Repr

namespace ClassDeclaration

/-- The key under which the declaration is looked up. -/
def key (declared : ClassDeclaration) : String :=
  Name.lookupKey declared.name

/-- The names behind `extends` and `implements`, the parent first. -/
def supertypeNames (declared : ClassDeclaration) : List String :=
  declared.parent.toList ++ declared.interfaces

/-- The declaration with the outer separators taken off all its names. -/
def normalized (declared : ClassDeclaration) : ClassDeclaration :=
  { declared with
    name := Name.trimSeparators declared.name
    parent := declared.parent.map Name.trimSeparators
    interfaces := declared.interfaces.map Name.trimSeparators }

end ClassDeclaration

end FactoryProxy
