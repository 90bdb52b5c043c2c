import FactoryProxy.Name.Basic

/-!
Contract: the meaning of a class reference at one place of a source file.

A scope holds the namespace of that place and the imports in force. `resolve`
gives the fully qualified name that a reference denotes there.

Owns: `NameScope`, importing, qualifying and resolving.
Does not own: reading import declarations from source text.
-/

namespace FactoryProxy.Name

/-- Imports are listed newest first under their folded alias, so the first
entry with an alias is the one in force. -/
structure NameScope where
  namespaceName : String
  imports : List (String × String)
deriving DecidableEq, Repr

namespace NameScope

/-- The scope at the start of a namespace. -/
def ofNamespace (namespaceName : String) : NameScope :=
  ⟨trimSeparators namespaceName, []⟩

/-- The scope at the start of a file. -/
def global : NameScope := ofNamespace ""

/-- The imported name for an alias in any ASCII case. -/
def imported? (scope : NameScope) (localName : String) : Option String :=
  scope.imports.lookup (Text.fold localName)

/-- The scope after importing `target`, under its last segment if no alias is
given. A target without a segment imports nothing. -/
def addImport (scope : NameScope) (target : String) (localName : Option String) : NameScope :=
  let target := trimSeparators target
  if target.isEmpty then scope
  else { scope with
    imports := (Text.fold (localName.getD (shortName target)), target) :: scope.imports }

/-- A declared name placed into the namespace of the scope. -/
def qualify (scope : NameScope) (name : String) : String :=
  if scope.namespaceName.isEmpty then name else join scope.namespaceName name

/-- The fully qualified name that a reference denotes. A leading separator marks
a name that is already complete and the first segment `namespace` the current
namespace; otherwise the first segment is an import if there is one. -/
def resolve (scope : NameScope) (reference : String) : String :=
  let name := Text.trimBlank reference
  match name.toList with
  | [] => scope.imported? name |>.getD (scope.qualify name)
  | first :: rest =>
    if isSeparator first then String.ofList rest
    else
      match Text.splitOnce separator name with
      | some (head, below) =>
        if Text.sameFolded head "namespace" then scope.qualify below
        else
          match scope.imported? head with
          | some target => join target below
          | none => scope.qualify name
      | none => (scope.imported? name).getD (scope.qualify name)

example :
    ((ofNamespace "App").addImport "Vendor\\Foo" none).resolve "foo\\Bar" = "Vendor\\Foo\\Bar" := by
  decide +kernel
example : (ofNamespace "App").resolve "Namespace\\Bar" = "App\\Bar" := by decide +kernel

end NameScope

end FactoryProxy.Name
