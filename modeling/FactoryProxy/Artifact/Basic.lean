import FactoryProxy.Artifact.Name
import FactoryProxy.Interface.Printer
import FactoryProxy.Path.Join

/-!
Contract: generated artifacts.

An artifact is a source file with one interface: the marker that all factories
extend, or the factory of a class, which declares the method `create`.

Owns: `Artifact`, the marker, the factory of a class and its documentation.
-/

namespace FactoryProxy

/-- A generated file. `className` is the class that the factory creates, and
`dependencies` the source files whose changes make the artifact stale. -/
structure Artifact where
  className : Option String
  name : String
  namespaceName : String
  file : Interface.SourceFile
  dependencies : OrderedSet Path
deriving DecidableEq, Repr

namespace Artifact

def qualified (artifact : Artifact) : String :=
  qualifiedName artifact.namespaceName artifact.name

def source (artifact : Artifact) : String :=
  artifact.file.render

/-- The documented type of a parameter: its hint without leading question marks,
or `mixed`. A nullable one, and an optional one with the default `null`, gets
the member `null` unless it has one. -/
def documentedType (parameter : Parameter) : String :=
  let declared := parameter.typeHint.map Text.trimBlank
  let isMark := fun c : Char => c == '?'
  let base :=
    match declared with
    | some hint => Text.trimStart isMark hint
    | none => "mixed"
  let marked :=
    match declared with
    | some hint => hint.toList.head?.any isMark
    | none => false
  let nullable := marked || (parameter.optional && parameter.defaultsToNull)
  let mentionsNull := (Text.splitBy (· == '|') base).any
    (fun atom => Text.sameFolded (Text.trimBlank atom) "null")
  if nullable && !mentionsNull then base ++ "|null" else base

def documentationLine (parameter : Parameter) : String :=
  "@param " ++ documentedType parameter ++ " $" ++ parameter.name

def creationMethod (className : String) (parameters : List Parameter) : Interface.Method where
  name := "create"
  doc := parameters.map documentationLine
  parameters := parameters.map Parameter.toParameterDeclaration
  returnType := some className

/-- The factory of a class, which passes on the given parameters. -/
def factory (className : String) (parameters : List Parameter) (namespaceName : String)
    (dependencies : OrderedSet Path) : Artifact where
  className := some className
  name := factoryName className
  namespaceName := namespaceName
  file := .ofInterface namespaceName
    ⟨factoryName className, [qualifiedName namespaceName markerName],
      [creationMethod className parameters]⟩
  dependencies := dependencies

def marker (namespaceName : String) : Artifact where
  className := none
  name := markerName
  namespaceName := namespaceName
  file := .ofInterface namespaceName ⟨markerName, [], []⟩
  dependencies := ∅

end Artifact

end FactoryProxy
