import FactoryProxy.ClassDeclaration
import FactoryProxy.Php.SourceFile
import FactoryProxy.Reflection.DefaultValue

/-!
Contract: the declarations of a source file with full names.

The statements of a file are read in order with the scope in force: an import
adds to the scope, and a namespace starts a new one. The block of a namespace
has a scope of its own, which ends with the block.

Owns: the scope at each statement and the meaning of class syntax in it.
-/

namespace FactoryProxy.Reflection

/-! ## Imports -/

/-- The full target of a clause below the common start of its group. -/
def clauseTarget (above : Option String) (target : String) : String :=
  match above with
  | some start => Name.join (Name.trimSeparators start) (Name.trimSeparators target)
  | none => target

/-- The scope after a clause. Functions and constants import no class. -/
def addClause (above : Option String) (scope : Name.NameScope) (clause : Php.ImportClause) :
    Name.NameScope :=
  if clause.marked then scope
  else scope.addImport (clauseTarget above clause.target) clause.localName

def addImports (scope : Name.NameScope) (declared : Php.ImportSyntax) : Name.NameScope :=
  if declared.marked then scope
  else declared.clauses.foldl (addClause declared.above) scope

/-! ## Classes -/

def visibilityOf (keyword : Option String) : Visibility :=
  match keyword with
  | some "private" => .privateAccess
  | some "protected" => .protectedAccess
  | _ => .publicAccess

def parameterOf (declaring : Declaring) (written : Php.ParameterSyntax) : Parameter where
  name := written.name
  typeHint := written.typeHint
  defaultValue := written.defaultValue.map declaring.moved
  byReference := written.byReference
  variadic := written.variadic
  optional := false

def constructorOf (declaring : Declaring) (written : Php.ConstructorSyntax) : Constructor :=
  .ofParameters (visibilityOf written.visibility)
    (written.parameters.map (parameterOf declaring))

/-- The declaration that class syntax denotes in a scope. -/
def declarationOf (file : Path) (scope : Name.NameScope) (written : Php.ClassSyntax) :
    ClassDeclaration :=
  let name := Name.trimSeparators (scope.qualify written.name)
  let parents := written.parents.map scope.resolve
  let interfaces := written.interfaces.map scope.resolve
  let isInterface := written.kind == .interfaceKind
  let parent := if isInterface then none else parents.head?
  { name := name
    kind := written.kind
    isAbstract := written.isAbstract
    parent := parent
    interfaces := if isInterface then parents ++ interfaces else interfaces
    constructor := written.constructor.map (constructorOf ⟨scope, name, parent⟩)
    file := file
    line := written.line }

/-! ## Files -/

mutual

/-- The scope behind a statement and the declarations in it. -/
def step (file : Path) (scope : Name.NameScope) :
    Php.Statement → Name.NameScope × List ClassDeclaration
  | .namespaceStart name => (.ofNamespace name, [])
  | .namespaceBlock name body => (scope, declarations file (.ofNamespace name) body)
  | .imports declared => (addImports scope declared, [])
  | .declaration written => (scope, [declarationOf file scope written])
  | .nameless => (scope, [])

/-- The declarations of statements that start in a scope. -/
def declarations (file : Path) (scope : Name.NameScope) :
    List Php.Statement → List ClassDeclaration
  | [] => []
  | statement :: rest =>
    (step file scope statement).2 ++ declarations file (step file scope statement).1 rest

end

/-- The declarations of a file in source order. -/
def declarationsOf (file : Path) (source : Php.SourceFile) : List ClassDeclaration :=
  declarations file .global source.statements

/-- The declarations in the text of a file. -/
def declarationsIn (file : Path) (text : String) : List ClassDeclaration :=
  declarationsOf file (.ofText text)

end FactoryProxy.Reflection
