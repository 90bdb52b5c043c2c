import FactoryProxy.Dependency.Basic
import FactoryProxy.Failure

/-!
Contract: the description of a container.

A container has named definitions in the order of their registration, steps that
run when it starts, parameters, and the files it was made from.

Owns: `Container` and its changes.
Does not own: its manifest and what its steps do.
-/

namespace FactoryProxy

/-- A service that implements an interface. Tags carry texts. -/
structure Definition where
  implement : String
  tags : OrderedMap String (List String)
deriving DecidableEq, Repr

namespace Definition

def empty : Definition := ⟨"", ∅⟩

def setImplement (definition : Definition) (name : String) : Definition :=
  { definition with implement := name }

def addTag (definition : Definition) (tag : String) (metadata : List String) : Definition :=
  { definition with tags := definition.tags.insert tag metadata }

end Definition

/-- A step at the start: the types of a namespace are loaded from a directory. -/
structure Initializer where
  directory : Path
  namespaceName : String
deriving DecidableEq, Repr

namespace Initializer

/-- Equality up to the spelling of the directory. -/
def same (left right : Initializer) : Bool :=
  left.directory.same right.directory && left.namespaceName == right.namespaceName

end Initializer

structure Container where
  parameters : OrderedMap String String
  definitions : List (String × Definition)
  dependencies : DependencySet
  initializers : List Initializer
deriving DecidableEq, Repr

namespace Container

def factoryTag : String := "autofactory"

def empty : Container := ⟨∅, [], ∅, []⟩

instance : EmptyCollection Container := ⟨empty⟩

def withParameters (parameters : OrderedMap String String) : Container :=
  { empty with parameters := parameters }

def definition? (container : Container) (name : String) : Option Definition :=
  container.definitions.lookup name

def hasDefinition (container : Container) (name : String) : Bool :=
  (container.definition? name).isSome

/-- The container with a definition added under a new name. -/
def addDefinition (container : Container) (name : String) (definition : Definition) :
    Except Failure Container :=
  if container.hasDefinition name then .error (.configuration (.repeatedService name))
  else .ok { container with definitions := container.definitions ++ [(name, definition)] }

/-- The names of the definitions with a tag and what the tag carries. -/
def findByTag (container : Container) (tag : String) : List (String × List String) :=
  container.definitions.filterMap (fun named =>
    (named.2.tags.get? tag).map (fun metadata => (named.1, metadata)))

def addDependencies (container : Container) (set : DependencySet) : Container :=
  { container with dependencies := container.dependencies.extend set }

/-- The container with a step in front of all others, unless it is among them. -/
def prependInitializer (container : Container) (initializer : Initializer) : Container :=
  if container.initializers.any (fun present => present.same initializer) then container
  else { container with initializers := initializer :: container.initializers }

/-- Equality up to the spelling of paths. -/
def same (left right : Container) : Bool :=
  left.parameters == right.parameters
    && left.definitions == right.definitions
    && left.dependencies.same right.dependencies
    && left.initializers.length == right.initializers.length
    && (left.initializers.zip right.initializers).all (fun pair => pair.1.same pair.2)

end Container

end FactoryProxy
