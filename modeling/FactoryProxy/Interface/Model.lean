import FactoryProxy.Name.Basic
import FactoryProxy.Signature.Parameter

/-!
Contract: generated source files as data.

Owns: interfaces, their methods, the file that holds them, and the shortest
spelling of a name inside the namespace of the file.
Does not own: the text of a file, which `Interface.Printer` gives.
-/

namespace FactoryProxy.Interface

/-- A method without a body. `doc` holds the lines of its comment and
`returnType` the full name of a class. -/
structure Method where
  name : String
  doc : List String
  parameters : List ParameterDeclaration
  returnType : Option String
deriving DecidableEq, Repr

/-- An interface and the full names of those it extends. -/
structure Declaration where
  name : String
  parents : List String
  methods : List Method
deriving DecidableEq, Repr

structure SourceFile where
  strictTypes : Bool
  namespaceName : String
  interfaces : List Declaration
deriving DecidableEq, Repr

namespace SourceFile

/-- A strict file that holds one interface. -/
def ofInterface (namespaceName : String) (declaration : Declaration) : SourceFile :=
  ⟨true, namespaceName, [declaration]⟩

/-- What follows a leading text, if there is such a text. -/
def dropText : List Char → List Char → Option (List Char)
  | [], rest => some rest
  | _ :: _, [] => none
  | expected :: more, actual :: rest =>
    if expected = actual then dropText more rest else none

/-- The shortest spelling of a full name in the file: its last segment for a
name directly in the namespace of the file, otherwise the name behind a
separator. -/
def relativeName (file : SourceFile) (name : String) : String :=
  let direct : Option (List Char) :=
    if file.namespaceName.isEmpty then none
    else
      match dropText file.namespaceName.toList name.toList with
      | some (first :: rest) =>
        if Name.isSeparator first && !rest.any Name.isSeparator then some rest else none
      | _ => none
  match direct with
  | some segment => String.ofList segment
  | none => Name.fullyQualified name

end SourceFile

end FactoryProxy.Interface
