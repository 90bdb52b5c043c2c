import FactoryProxy.Proofs.ClassIndex.Ancestry
import FactoryProxy.Proofs.Selection
import Mathlib.Data.List.Perm.Subperm
import Mathlib.Logic.Relation

/-!
Contract: which declarations are subtypes of themselves.

The search for the types above a declaration starts from the names behind its `extends` and
`implements`. It comes back to the declaration exactly if these names lead in a circle, and
then the declaration is a subtype of itself. Without circles the number of types above a
declaration falls with each step up, so subtyping is strict.

Owns: circles in a hierarchy, the declarations that are below themselves or selected by their
own name, and the levels of a hierarchy without circles.
-/

namespace FactoryProxy.ClassIndex

variable {index : ClassIndex} {declared : List ClassDeclaration}
  {declaration lower upper : ClassDeclaration} {name : String}

/-! ## Circles -/

/-- The lower declaration names the upper one behind `extends` or `implements`. -/
def DirectlyBelow (index : ClassIndex) (lower upper : ClassDeclaration) : Prop :=
  ∃ key ∈ lower.supertypeKeys, index.classes.get? key = some upper

/-- Names behind `extends` and `implements` lead from the declaration back to it. -/
def OnCircle (index : ClassIndex) (declaration : ClassDeclaration) : Prop :=
  Relation.TransGen index.DirectlyBelow declaration declaration

theorem reaches_of_transGen (keyed : Keyed index.classes)
    (below : Relation.TransGen index.DirectlyBelow lower upper) :
    Reaches index lower upper.key := by
  induction below using Relation.TransGen.head_induction_on with
  | single step =>
      obtain ⟨key, named, found⟩ := step
      rw [keyed key upper found]
      exact .direct named
  | head step _ inductionHypothesis =>
      obtain ⟨key, named, found⟩ := step
      exact .through named found inductionHypothesis

theorem transGen_of_reaches {key : String} (reaches : Reaches index lower key)
    (found : index.classes.get? key = some upper) :
    Relation.TransGen index.DirectlyBelow lower upper := by
  induction reaches with
  | direct named => exact .single ⟨_, named, found⟩
  | through named indexed _ inductionHypothesis =>
      exact .head ⟨_, named, indexed⟩ (inductionHypothesis found)

/-- A chain leads from an indexed declaration to its own key exactly on a circle. -/
theorem reaches_self_iff (keyed : Keyed index.classes) (indexed : declaration ∈ index.toList) :
    Reaches index declaration declaration.key ↔ index.OnCircle declaration :=
  ⟨fun reaches => transGen_of_reaches reaches (get?_of_mem_toList keyed indexed),
    fun onCircle => reaches_of_transGen keyed onCircle⟩

/-- A declaration is a subtype of itself, however its name is spelled, on circles only. -/
theorem isSubclassOf_self_iff (keyed : Keyed index.classes) (indexed : declaration ∈ index.toList)
    (spelling : Name.lookupKey name = declaration.key) :
    index.isSubclassOf declaration name = true ↔ index.OnCircle declaration := by
  rw [isSubclassOf_iff, spelling, reaches_self_iff keyed indexed]

/-! ## Selection by the own name -/

/-- The name of an indexed class or interface is a target in the spelling of the index. -/
theorem resolve_own_name (keyed : Keyed index.classes) (indexed : declaration ∈ index.toList)
    (spelling : Name.lookupKey name = declaration.key)
    (isType : declaration.kind = .classKind ∨ declaration.kind = .interfaceKind) :
    TargetTypes.resolve index [name] = .ok ⟨[declaration.name]⟩ := by
  have found : index.get? name = some declaration := by
    unfold get?
    rw [spelling]
    exact get?_of_mem_toList keyed indexed
  have checked : TargetTypes.check index name = .ok declaration.name := by
    unfold TargetTypes.check
    rw [found]
    exact if_pos isType
  have allChecked : [name].mapM (TargetTypes.check index) = .ok [declaration.name] :=
    Sequencing.mapM_eq_ok.mpr (.cons checked .nil)
  exact Sequencing.map_eq_ok.mpr ⟨[declaration.name], allChecked, rfl⟩

theorem mem_select_own_name_iff (keyed : Keyed index.classes)
    (indexed : declaration ∈ index.toList) :
    declaration ∈ TargetTypes.select ⟨[declaration.name]⟩ index ↔
      index.isInstantiable declaration = true ∧ index.OnCircle declaration := by
  have ownTarget : (∃ target ∈ [declaration.name],
      index.Reaches declaration (Name.lookupKey target)) ↔ index.OnCircle declaration := by
    rw [← reaches_self_iff keyed indexed]
    simp only [List.mem_singleton, exists_eq_left]
    rfl
  unfold TargetTypes.select
  rw [List.mem_filter, Bool.and_eq_true, TargetTypes.matchedBy_isSome_iff, ownTarget]
  exact and_iff_right indexed

/-! ## Levels -/

/-- Of two declarations off all circles the lower one has more types above it. -/
theorem size_supertypes_lt (keyed : Keyed index.classes) (below : index.DirectlyBelow lower upper)
    (offCircle : ¬ index.OnCircle upper) :
    (index.supertypes upper).size < (index.supertypes lower).size := by
  obtain ⟨key, named, found⟩ := below
  have isKey := keyed key upper found
  have upperReaches : upper.key ∉ (index.supertypes upper).toList := by
    rw [mem_supertypes_iff, reaches_self_iff keyed (mem_toList_of_get? found)]
    exact offCircle
  have lowerReaches : upper.key ∈ (index.supertypes lower).toList := by
    rw [mem_supertypes_iff, isKey]
    exact .direct named
  have listedOnce : (upper.key :: (index.supertypes upper).toList).Nodup :=
    List.nodup_cons.mpr ⟨upperReaches,
      OrderedMap.nodup_of_increasing (OrderedSet.increasing_toList _)⟩
  have contained : upper.key :: (index.supertypes upper).toList ⊆
      (index.supertypes lower).toList := by
    refine List.cons_subset.mpr ⟨lowerReaches, fun above member => ?_⟩
    rw [mem_supertypes_iff] at member ⊢
    exact .through named found member
  have shorter := (listedOnce.subperm contained).length_le
  unfold OrderedSet.toList OrderedMap.keys at shorter
  rw [List.length_cons, List.length_map, List.length_map] at shorter
  exact shorter

theorem level_lt_of_transGen {level : ClassDeclaration → Nat}
    (falls : ∀ lower ∈ index.toList, ∀ upper, index.DirectlyBelow lower upper →
      level upper < level lower)
    (indexed : lower ∈ index.toList)
    (below : Relation.TransGen index.DirectlyBelow lower upper) : level upper < level lower := by
  induction below using Relation.TransGen.head_induction_on with
  | single step => exact falls _ indexed _ step
  | head step _ inductionHypothesis =>
      obtain ⟨key, named, found⟩ := step
      have below := inductionHypothesis (mem_toList_of_get? found)
      exact Nat.lt_trans below (falls _ indexed _ ⟨key, named, found⟩)

/-- A hierarchy has no circle exactly if its declarations have levels that fall upwards. -/
theorem offCircles_iff_levels (keyed : Keyed index.classes) :
    (∀ declaration ∈ index.toList, ¬ index.OnCircle declaration) ↔
      ∃ level : ClassDeclaration → Nat, ∀ lower ∈ index.toList, ∀ upper,
        index.DirectlyBelow lower upper → level upper < level lower := by
  constructor
  · intro offCircles
    refine ⟨fun declaration => (index.supertypes declaration).size, ?_⟩
    intro lower _ upper below
    obtain ⟨key, named, found⟩ := below
    exact size_supertypes_lt keyed ⟨key, named, found⟩
      (offCircles upper (mem_toList_of_get? found))
  · rintro ⟨level, falls⟩ declaration indexed onCircle
    exact Nat.lt_irrefl _ (level_lt_of_transGen falls indexed onCircle)

/-- An indexed declaration is a subtype of itself, and a class is selected by its own name,
exactly on a circle of names behind `extends` and `implements`. There is no circle exactly if
the declarations have levels that fall from each one to those it names. -/
theorem strict_iff_off_circles (built : ofClasses declared = .ok index) :
    (∀ declaration ∈ declared, ∀ name, Name.lookupKey name = declaration.key →
      (index.isSubclassOf declaration name = true ↔ index.OnCircle declaration) ∧
      (declaration.kind = .classKind ∨ declaration.kind = .interfaceKind →
        TargetTypes.resolve index [name] = .ok ⟨[declaration.name]⟩ ∧
        (declaration ∈ TargetTypes.select ⟨[declaration.name]⟩ index ↔
          index.isInstantiable declaration = true ∧ index.OnCircle declaration))) ∧
      ((∀ declaration ∈ declared, ¬ index.OnCircle declaration) ↔
        ∃ level : ClassDeclaration → Nat, ∀ lower ∈ declared, ∀ upper,
          index.DirectlyBelow lower upper → level upper < level lower) := by
  have keyed := keyed_of_ofClasses built
  constructor
  · intro declaration member name spelling
    have indexed := (mem_toList_iff built).mpr member
    refine ⟨isSubclassOf_self_iff keyed indexed spelling, fun isType => ⟨?_, ?_⟩⟩
    · exact resolve_own_name keyed indexed spelling isType
    · exact mem_select_own_name_iff keyed indexed
  · simp only [← mem_toList_iff built]
    exact offCircles_iff_levels keyed

/-- A class that extends its own subclass. -/
def classOnCircle : ClassDeclaration :=
  ⟨"A", .classKind, false, some "B", [], none, ⟨"a.php"⟩, 0⟩

def classesOnCircle : List ClassDeclaration := [
  classOnCircle,
  ⟨"B", .classKind, false, some "A", [], none, ⟨"b.php"⟩, 0⟩]

def indexOnCircle : ClassIndex :=
  ⟨.ofList (classesOnCircle.map (fun declared => (declared.key, declared))), []⟩

/-- A circle is noticed when its class is found below another spelling of its name. -/
theorem circle_noticed_by_own_name :
    ofClasses classesOnCircle = .ok indexOnCircle ∧
      Name.lookupKey "\\a" = classOnCircle.key ∧ indexOnCircle.OnCircle classOnCircle := by
  have built : ofClasses classesOnCircle = .ok indexOnCircle := by decide +kernel
  have member : classOnCircle ∈ classesOnCircle := List.mem_cons_self
  have spelling : Name.lookupKey "\\a" = classOnCircle.key := by decide +kernel
  have belowItself : indexOnCircle.isSubclassOf classOnCircle "\\a" = true := by decide +kernel
  refine ⟨built, spelling, ?_⟩
  exact ((strict_iff_off_circles built).1 classOnCircle member "\\a" spelling).1.mp belowItself

/-- Subtyping is not strict: a class that extends its own subclass is below itself, and its
own name as the only target selects it. -/
theorem class_on_circle_below_itself :
    ofClasses classesOnCircle = .ok indexOnCircle ∧ classOnCircle ∈ classesOnCircle ∧
      indexOnCircle.isSubclassOf classOnCircle classOnCircle.name = true ∧
      TargetTypes.resolve indexOnCircle [classOnCircle.name] = .ok ⟨[classOnCircle.name]⟩ ∧
      classOnCircle ∈ TargetTypes.select ⟨[classOnCircle.name]⟩ indexOnCircle := by
  decide +kernel

end FactoryProxy.ClassIndex
