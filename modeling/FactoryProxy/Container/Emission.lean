import FactoryProxy.Artifact.Registry
import FactoryProxy.Container.Basic

/-!
Contract: definitions of generated factories.

Every factory gets a tagged definition under a numbered name. The marker, which
creates nothing, gets none.

Owns: the names and the definitions.
-/

namespace FactoryProxy.Container

/-- The name of the definition at a place among the factories. -/
def definitionName (slot : Nat) : String :=
  factoryTag ++ ".factory." ++ toString slot

/-- The definition of the factory of a class. -/
def factoryDefinition (interfaceName className : String) : Definition :=
  (Definition.empty.setImplement interfaceName).addTag factoryTag [className]

/-- The interface names and classes of the factories among artifacts. -/
def factoriesOf (artifacts : List PersistedArtifact) : List (String × String) :=
  artifacts.filterMap (fun artifact =>
    artifact.className.map (fun className => (artifact.qualifiedName, className)))

/-- Adds the definitions of factories from a slot on. A name that is taken ends
this; the definitions before it stay. -/
def addFactories (container : Container) (slot : Nat) :
    List (String × String) → Container × Except Failure Nat
  | [] => (container, .ok slot)
  | (interfaceName, className) :: rest =>
    match container.addDefinition (definitionName slot)
        (factoryDefinition interfaceName className) with
    | .ok added => added.addFactories (slot + 1) rest
    | .error failure => (container, .error failure)

/-- Adds the definitions of the factories among artifacts and counts them. -/
def emit (container : Container) (artifacts : List PersistedArtifact) :
    Container × Except Failure Nat :=
  container.addFactories 0 (factoriesOf artifacts)

end FactoryProxy.Container
