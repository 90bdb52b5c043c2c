import FactoryProxy.Proofs.ClassIndex.Construction
import FactoryProxy.Proofs.OrderedMap.Spelling
import Mathlib.Data.List.Induction
import Mathlib.Data.List.Nodup
import Mathlib.Data.List.Perm.Basic

/-!
Contract: which declarations can be indexed.

Declarations are indexed together exactly if no two of them share a key, and then their
order does not matter. Otherwise the construction ends at the first declaration whose key
came before, and names it with the file of the earlier one.

Owns: the first repeated key, the exact outcome of a construction, and its independence of
the order.
-/

namespace FactoryProxy.ClassIndex

variable {declared permuted : List ClassDeclaration} {first second : ClassDeclaration}
  {index : ClassIndex}

/-! ## Repeated keys -/

/-- No two of the declarations share a key. -/
def DistinctKeys (declared : List ClassDeclaration) : Prop :=
  (declared.map ClassDeclaration.key).Nodup

/-- The second declaration is the first one in the list whose key came before, and the first
declaration had it. -/
def FirstRepeated (declared : List ClassDeclaration) (first second : ClassDeclaration) : Prop :=
  ∃ before after, declared = before ++ second :: after ∧ DistinctKeys before ∧
    first ∈ before ∧ first.key = second.key

/-- Going through a list one finds the first repeated key, or there is none. -/
theorem distinct_or_repeated (declared : List ClassDeclaration) :
    DistinctKeys declared ∨ ∃ first second, FirstRepeated declared first second := by
  induction declared using List.reverseRecOn with
  | nil => exact .inl List.nodup_nil
  | append_singleton front last inductionHypothesis =>
      rcases inductionHypothesis with distinct | ⟨first, second, before, after, rfl, repeats⟩
      · by_cases repeated : last.key ∈ front.map ClassDeclaration.key
        · obtain ⟨first, isFirst, sameKey⟩ := List.mem_map.mp repeated
          exact .inr ⟨first, last, front, [], rfl, distinct, isFirst, sameKey⟩
        · refine .inl ?_
          unfold DistinctKeys
          rw [List.map_append, List.map_singleton, ← List.concat_eq_append]
          exact distinct.concat repeated
      · refine .inr ⟨first, second, before, after ++ [last], ?_, repeats⟩
        rw [List.append_assoc, List.cons_append]

/-! ## The outcome of a construction -/

/-- Declarations are added in one go or in two. -/
theorem addAll_append (classes : OrderedMap String ClassDeclaration)
    (before after : List ClassDeclaration) :
    addAll classes (before ++ after) =
      (addAll classes before).bind (fun extended => addAll extended after) := by
  induction before generalizing classes with
  | nil => rfl
  | cons head tail inductionHypothesis =>
      rw [List.cons_append, addAll, addAll]
      cases classes.get? head.key with
      | some earlier => rfl
      | none => exact inductionHypothesis _

/-- Declarations with new and distinct keys are added. -/
theorem addAll_of_distinct {classes : OrderedMap String ClassDeclaration}
    (areNew : ∀ declaration ∈ declared, classes.get? declaration.key = none)
    (distinct : DistinctKeys declared) : ∃ extended, addAll classes declared = .ok extended := by
  induction declared generalizing classes with
  | nil => exact ⟨classes, rfl⟩
  | cons head tail inductionHypothesis =>
      obtain ⟨headApart, tailDistinct⟩ := List.nodup_cons.mp distinct
      obtain ⟨headNew, tailNew⟩ := List.forall_mem_cons.mp areNew
      have stillNew : ∀ declaration ∈ tail,
          (classes.insert head.key head).get? declaration.key = none := by
        intro declaration member
        have otherKey : declaration.key ≠ head.key := by
          intro sameKey
          exact headApart (sameKey ▸ List.mem_map_of_mem member)
        rw [OrderedMap.get?_insert, if_neg otherKey]
        exact tailNew declaration member
      rw [addAll, headNew]
      exact inductionHypothesis stillNew tailDistinct

theorem ofClasses_of_distinct (distinct : DistinctKeys declared) :
    ∃ index, ofClasses declared = .ok index := by
  have areNew : ∀ declaration ∈ declared,
      (∅ : OrderedMap String ClassDeclaration).get? declaration.key = none := fun _ _ => rfl
  obtain ⟨classes, added⟩ := addAll_of_distinct areNew distinct
  exact ⟨⟨classes, []⟩, Sequencing.map_eq_ok.mpr ⟨classes, added, rfl⟩⟩

/-- A repeated key ends the construction with both files, the earlier one first. -/
theorem ofClasses_of_repeated (repeated : FirstRepeated declared first second) :
    ofClasses declared = .error (.ambiguousClass second.name first.file second.file) := by
  obtain ⟨before, after, rfl, distinct, isFirst, sameKey⟩ := repeated
  obtain ⟨earlier, isEarlier⟩ := ofClasses_of_distinct distinct
  have found : earlier.classes.get? second.key = some first :=
    (get?_classes_iff isEarlier).mpr ⟨isFirst, sameKey⟩
  unfold ofClasses
  rw [addAll_append, classes_of_ofClasses isEarlier, Except.bind, addAll, found]
  rfl

theorem ofClasses_isOk_iff :
    (∃ index, ofClasses declared = .ok index) ↔ DistinctKeys declared := by
  refine ⟨fun ⟨index, built⟩ => ?_, ofClasses_of_distinct⟩
  rcases distinct_or_repeated declared with distinct | ⟨first, second, repeated⟩
  · exact distinct
  · rw [ofClasses_of_repeated repeated] at built
    cases built

theorem ofClasses_eq_error_iff {failure : Failure} :
    ofClasses declared = .error failure ↔
      ∃ first second, FirstRepeated declared first second ∧
        failure = .ambiguousClass second.name first.file second.file := by
  constructor
  · intro failed
    rcases distinct_or_repeated declared with distinct | ⟨first, second, repeated⟩
    · obtain ⟨index, built⟩ := ofClasses_of_distinct distinct
      cases failed.symm.trans built
    · have isFailure := failed.symm.trans (ofClasses_of_repeated repeated)
      exact ⟨first, second, repeated, Except.error.inj isFailure⟩
  · rintro ⟨first, second, repeated, rfl⟩
    exact ofClasses_of_repeated repeated

/-! ## The indexed declarations -/

theorem get?_eq_none_iff (built : ofClasses declared = .ok index) {name : String} :
    index.get? name = none ↔
      ∀ declaration ∈ declared, declaration.key ≠ Name.lookupKey name := by
  rw [Option.eq_none_iff_forall_ne_some]
  constructor
  · intro unknown declaration member sameKey
    exact unknown declaration ((get?_classes_iff built).mpr ⟨member, sameKey⟩)
  · intro apart found isFound
    obtain ⟨member, sameKey⟩ := (get?_classes_iff built).mp isFound
    exact apart found member sameKey

/-- An index lists each of its declarations once. -/
theorem perm_toList (built : ofClasses declared = .ok index) : index.toList.Perm declared := by
  have distinct : DistinctKeys declared := ofClasses_isOk_iff.mp ⟨index, built⟩
  have listedOnce : index.toList.Nodup :=
    OrderedMap.nodup_of_increasing (increasing_toList (keyed_of_ofClasses built))
  exact (List.perm_ext_iff_of_nodup listedOnce (List.Nodup.of_map _ distinct)).mpr
    (fun _ => mem_toList_iff built)

/-- The order of the declarations does not matter. -/
theorem ofClasses_of_perm (built : ofClasses declared = .ok index)
    (permutation : permuted.Perm declared) : ofClasses permuted = .ok index := by
  have distinct : DistinctKeys permuted :=
    (permutation.map ClassDeclaration.key).nodup_iff.mpr (ofClasses_isOk_iff.mp ⟨index, built⟩)
  obtain ⟨other, isOther⟩ := ofClasses_of_distinct distinct
  have sameClasses : other.classes = index.classes := by
    apply OrderedMap.eq_of_get?
    intro key
    apply Option.ext
    intro found
    rw [get?_classes_iff isOther, get?_classes_iff built, permutation.mem_iff]
  rw [isOther]
  obtain ⟨classes, _, rfl⟩ := Sequencing.map_eq_ok.mp isOther
  obtain ⟨_, _, rfl⟩ := Sequencing.map_eq_ok.mp built
  dsimp only at sameClasses
  rw [sameClasses]

/-- Declarations are indexed exactly if their keys are distinct: each once, in the order of
keys, under its own key and whatever their order was. Otherwise the failure names the first
declaration whose key came before, with the file of the earlier one and its own. -/
theorem construction_exact (declared : List ClassDeclaration) :
    ((∃ index, ofClasses declared = .ok index) ↔ DistinctKeys declared) ∧
      (∀ index, ofClasses declared = .ok index →
        index.toList.Perm declared ∧
        index.toList.Pairwise (fun left right => compare left.key right.key = .lt) ∧
        (∀ name found, index.get? name = some found ↔
          found ∈ declared ∧ found.key = Name.lookupKey name) ∧
        (∀ name, index.get? name = none ↔
          ∀ declaration ∈ declared, declaration.key ≠ Name.lookupKey name) ∧
        ∀ permuted : List ClassDeclaration, permuted.Perm declared →
          ofClasses permuted = .ok index) ∧
      ∀ failure, ofClasses declared = .error failure ↔
        ∃ first second, FirstRepeated declared first second ∧
          failure = .ambiguousClass second.name first.file second.file := by
  refine ⟨ofClasses_isOk_iff, ?_, fun failure => ofClasses_eq_error_iff⟩
  intro index built
  refine ⟨perm_toList built, increasing_toList (keyed_of_ofClasses built), ?_, ?_, ?_⟩
  · intro name found
    exact get?_classes_iff built
  · intro name
    exact get?_eq_none_iff built
  · intro permuted permutation
    exact ofClasses_of_perm built permutation

example :
    (ofClasses [⟨"App\\Foo", .classKind, false, none, [], none, ⟨"a.php"⟩, 1⟩,
      ⟨"B", .traitKind, false, none, [], none, ⟨"b.php"⟩, 1⟩,
      ⟨"\\app\\foo", .classKind, false, none, [], none, ⟨"c.php"⟩, 1⟩,
      ⟨"b", .classKind, false, none, [], none, ⟨"d.php"⟩, 1⟩]).map toList =
        .error (.ambiguousClass "\\app\\foo" ⟨"a.php"⟩ ⟨"c.php"⟩) := by
  decide +kernel

end FactoryProxy.ClassIndex
