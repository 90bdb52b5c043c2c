import FactoryProxy.ClassIndex.Scan
import FactoryProxy.Proofs.ClassIndex.Correspondence

/-!
Contract: what an index says about classes does not depend on where their files are.

A declaration names its file, but neither the hierarchy nor the selection looks at
that name. Both give the same for an index and for the one without its files.

Owns: declarations and indexes without their files, and the agreement of the answers
about them.
-/

namespace FactoryProxy

/-! ## Declarations -/

namespace ClassDeclaration

/-- The declaration without the name of its file. -/
def unplaced (declared : ClassDeclaration) : ClassDeclaration :=
  { declared with file := ⟨""⟩ }

/-- The declarations are the same up to the names of their files. -/
def Moved (declared other : ClassDeclaration) : Prop :=
  declared.unplaced = other.unplaced

theorem Moved.sameKey {declared other : ClassDeclaration} (moved : declared.Moved other) :
    declared.key = other.key := by
  have sameKey : declared.unplaced.key = other.unplaced.key := congrArg key moved
  exact sameKey

end ClassDeclaration

open ClassDeclaration (unplaced)

namespace Reflection

mutual

/-- A statement means the same in every file. -/
theorem step_unplaced (file : Path) (scope : Name.NameScope) : ∀ statement : Php.Statement,
    (step file scope statement).1 = (step ⟨""⟩ scope statement).1 ∧
      (step file scope statement).2.map unplaced = (step ⟨""⟩ scope statement).2
  | .namespaceStart _ => ⟨rfl, rfl⟩
  | .namespaceBlock name body => ⟨rfl, declarations_unplaced file (.ofNamespace name) body⟩
  | .imports _ => ⟨rfl, rfl⟩
  | .declaration _ => ⟨rfl, rfl⟩
  | .nameless => ⟨rfl, rfl⟩

theorem declarations_unplaced (file : Path) (scope : Name.NameScope) :
    ∀ statements : List Php.Statement,
      (declarations file scope statements).map unplaced = declarations ⟨""⟩ scope statements
  | [] => rfl
  | statement :: rest => by
      obtain ⟨sameScope, sameDeclarations⟩ := step_unplaced file scope statement
      have sameRest := declarations_unplaced file (step file scope statement).1 rest
      unfold declarations
      rw [List.map_append, sameDeclarations, sameRest, sameScope]

end

theorem declarationsIn_unplaced (file : Path) (text : String) :
    (declarationsIn file text).map unplaced = declarationsIn ⟨""⟩ text :=
  declarations_unplaced file .global _

end Reflection

/-! ## Indexes -/

namespace ClassIndex

open ClassDeclaration (Moved)

/-- The index without the names of files. -/
def unplaced (index : ClassIndex) : ClassIndex :=
  ⟨index.classes.mapValues ClassDeclaration.unplaced, []⟩

/-- Declarations that differ in their files only are indexed alike. -/
theorem addAll_of_unplaced {classes : OrderedMap String ClassDeclaration}
    {declared declaredElsewhere : List ClassDeclaration}
    (sameDeclared : declared.map ClassDeclaration.unplaced =
      declaredElsewhere.map ClassDeclaration.unplaced)
    (added : addAll ∅ declared = .ok classes) :
    ∃ others, addAll ∅ declaredElsewhere = .ok others ∧
      classes.mapValues ClassDeclaration.unplaced = others.mapValues ClassDeclaration.unplaced := by
  rw [← List.forall₂_eq_eq_eq, List.forall₂_map_left_iff, List.forall₂_map_right_iff]
    at sameDeclared
  have emptyMoved : Unvisited.Related Moved (∅ : OrderedMap String ClassDeclaration).entries
      (∅ : OrderedMap String ClassDeclaration).entries := .nil
  obtain ⟨others, addedElsewhere, movedClasses⟩ :=
    addAll_of_related (fun _ _ => Moved.sameKey) emptyMoved sameDeclared added
  refine ⟨others, addedElsewhere, OrderedMap.eq_of_entries ?_⟩
  unfold OrderedMap.mapValues
  dsimp only
  rw [← List.forall₂_eq_eq_eq, List.forall₂_map_left_iff, List.forall₂_map_right_iff]
  exact List.Forall₂.imp (fun _ _ same => Prod.ext same.1 same.2) movedClasses

variable (index : ClassIndex) (declared : ClassDeclaration)

theorem get?_unplaced (name : String) :
    index.unplaced.get? name = (index.get? name).map ClassDeclaration.unplaced :=
  OrderedMap.get?_mapValues _ _ _

/-! ## Correspondence -/

/-- The entries of an index are those of the index without its files, one by one. -/
theorem related_unplaced :
    Related (fun declared mate => mate = declared.unplaced) index index.unplaced :=
  List.forall₂_map_right_iff.mpr (List.forall₂_same.mpr (fun _ _ => ⟨rfl, rfl⟩))

theorem corresponds_unplaced {mate : ClassDeclaration} (same : mate = declared.unplaced) :
    declared.Corresponds mate := by
  rw [same]
  exact ⟨rfl, rfl, rfl, rfl, rfl, rfl⟩

theorem corresponding_unplaced : Related ClassDeclaration.Corresponds index index.unplaced :=
  Unvisited.Related.imp (related_unplaced index) (fun _ _ same => corresponds_unplaced _ same)

theorem isReferenced_unplaced (name : String) :
    index.unplaced.isReferenced name = index.isReferenced name :=
  Bool.eq_iff_iff.mpr (Related.isReferenced_iff (corresponding_unplaced index) rfl).symm

theorem constructorOf_unplaced :
    index.unplaced.constructorOf declared.unplaced = index.constructorOf declared :=
  ((corresponding_unplaced index).constructorOf (corresponds_unplaced declared rfl)).symm

end ClassIndex

/-! ## Selections -/

namespace TargetTypes

variable (index : ClassIndex) (targets : TargetTypes)

/-- A target is admitted under the same full name. -/
theorem check_unplaced (name target : String) :
    check index.unplaced name = .ok target ↔ check index name = .ok target := by
  unfold check
  rw [ClassIndex.get?_unplaced, ClassIndex.isReferenced_unplaced]
  cases index.get? name with
  | none => exact Iff.rfl
  | some known => exact Iff.rfl

theorem resolve_unplaced (names : List String) :
    resolve index.unplaced names = .ok targets ↔ resolve index names = .ok targets := by
  unfold resolve
  simp only [Sequencing.map_eq_ok, Sequencing.mapM_eq_ok, check_unplaced]

theorem select_unplaced :
    targets.select index.unplaced = (targets.select index).map ClassDeclaration.unplaced := by
  have selected := ClassIndex.Related.select (ClassIndex.related_unplaced index)
    (fun _ _ same => ClassIndex.corresponds_unplaced _ same)
    (fun key => Iff.refl (∃ target ∈ targets.names, Name.lookupKey target = key))
  have same : List.Forall₂ Eq ((targets.select index).map ClassDeclaration.unplaced)
      (targets.select index.unplaced) :=
    List.forall₂_map_left_iff.mpr (selected.imp (fun _ _ same => same.symm))
  rw [List.forall₂_eq_eq_eq] at same
  exact same.symm

end TargetTypes

namespace Artifact

/-- The artifact without the files it was made from. -/
def detached (artifact : Artifact) : Artifact :=
  { artifact with dependencies := ∅ }

theorem detached_ofClass (index : ClassIndex) (namespaceName : String)
    (declared : ClassDeclaration) :
    (ofClass index.unplaced namespaceName declared.unplaced).detached =
      (ofClass index namespaceName declared).detached := by
  have sameParameters : callerParameters index.unplaced declared.unplaced =
      callerParameters index declared := by
    unfold callerParameters
    rw [ClassIndex.constructorOf_unplaced]
  unfold ofClass
  rw [sameParameters]
  rfl

/-- The artifacts of an index depend on its files by their names only. -/
theorem detached_all (index : ClassIndex) (targets : TargetTypes) (namespaceName : String) :
    (all index.unplaced targets namespaceName).map detached =
      (all index targets namespaceName).map detached := by
  have sameFactories : (((targets.select index).map ClassDeclaration.unplaced).map
      (ofClass index.unplaced namespaceName)).map detached =
        ((targets.select index).map (ofClass index namespaceName)).map detached := by
    rw [List.map_map, List.map_map, List.map_map]
    exact List.map_congr_left (fun declared _ => detached_ofClass index namespaceName declared)
  unfold all
  rw [List.map_cons, List.map_cons, TargetTypes.select_unplaced, sameFactories]

end Artifact

end FactoryProxy
