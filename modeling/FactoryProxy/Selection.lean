import FactoryProxy.Artifact.Basic
import FactoryProxy.ClassIndex.Hierarchy

/-!
Contract: which classes get a factory.

Owns: scan targets checked against an index, the selected classes and their
artifacts.
-/

namespace FactoryProxy

/-- Full names of types whose subtypes are selected, each key once. -/
structure TargetTypes where
  names : List String
deriving DecidableEq, Repr

namespace TargetTypes

/-- The full name that a target stands for: an indexed class or interface, or a
type outside the index that an indexed declaration refers to. -/
def check (index : ClassIndex) (name : String) : Except Failure String :=
  match index.get? name with
  | some known =>
    if known.kind = .classKind ∨ known.kind = .interfaceKind then .ok known.name
    else .error (.unknownTarget name)
  | none =>
    if index.isReferenced name then .ok (Name.trimSeparators (Text.trimBlank name))
    else .error (.unknownTarget name)

/-- The names without those whose key came before. -/
def distinct (seen : List String) : List String → List String
  | [] => []
  | name :: rest =>
    if seen.contains (Name.lookupKey name) then distinct seen rest
    else name :: distinct (Name.lookupKey name :: seen) rest

/-- Checks the targets in order; the first unknown one is the failure. -/
def resolve (index : ClassIndex) (names : List String) : Except Failure TargetTypes :=
  (names.mapM (check index)).map (fun checked => ⟨distinct [] checked⟩)

/-- The first target that the declaration is a strict subtype of. -/
def matchedBy (targets : TargetTypes) (index : ClassIndex) (declared : ClassDeclaration) :
    Option String :=
  targets.names.find? (index.isSubclassOf declared)

/-- The instantiable classes below some target, in the order of the index. -/
def select (targets : TargetTypes) (index : ClassIndex) : List ClassDeclaration :=
  index.toList.filter (fun declared =>
    index.isInstantiable declared && (targets.matchedBy index declared).isSome)

end TargetTypes

namespace Artifact

/-- The parameters that the caller of a factory of the class supplies. -/
def callerParameters (index : ClassIndex) (declared : ClassDeclaration) : List Parameter :=
  ((index.constructorOf declared).map Constructor.builtinParameters).getD []

def ofClass (index : ClassIndex) (namespaceName : String) (declared : ClassDeclaration) :
    Artifact :=
  factory declared.name (callerParameters index declared) namespaceName
    (index.ancestryFiles declared)

/-- The marker and the factories of the selected classes. -/
def all (index : ClassIndex) (targets : TargetTypes) (namespaceName : String) :
    List Artifact :=
  marker namespaceName :: (targets.select index).map (ofClass index namespaceName)

end Artifact

end FactoryProxy
