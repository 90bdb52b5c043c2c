import FactoryProxy.ClassIndex.Basic
import FactoryProxy.Proofs.OrderedMap.Lookup
import FactoryProxy.Proofs.Sequencing

/-!
Contract: what an index made from declarations holds.

Owns: the agreement of entries with their keys, the indexed declarations and their
order.
-/

namespace FactoryProxy.ClassIndex

variable {index : ClassIndex} {declared : List ClassDeclaration}

/-- Every declaration stands under its own key. -/
def Keyed (classes : OrderedMap String ClassDeclaration) : Prop :=
  ∀ key declaration, classes.get? key = some declaration → declaration.key = key

theorem keyed_empty : Keyed ∅ := by
  intro key declaration found
  cases found

theorem keyed_insert {classes : OrderedMap String ClassDeclaration} (keyed : Keyed classes)
    (declaration : ClassDeclaration) : Keyed (classes.insert declaration.key declaration) := by
  intro key found isFound
  rw [OrderedMap.get?_insert] at isFound
  split at isFound
  · rename_i same
    rw [same, ← Option.some.inj isFound]
  · exact keyed key found isFound

/-- Added declarations are found under their keys, and so is what was there. -/
theorem addAll_eq_ok {classes extended : OrderedMap String ClassDeclaration}
    (keyed : Keyed classes) (added : addAll classes declared = .ok extended) :
    Keyed extended ∧ ∀ key declaration, extended.get? key = some declaration ↔
      classes.get? key = some declaration ∨ (declaration ∈ declared ∧ declaration.key = key) := by
  induction declared generalizing classes with
  | nil =>
      obtain rfl := Except.ok.inj added
      refine ⟨keyed, fun key declaration => ⟨.inl, ?_⟩⟩
      rintro (found | ⟨member, _⟩)
      · exact found
      · cases member
  | cons head tail inductionHypothesis =>
      unfold addAll at added
      split at added
      · cases added
      · rename_i isNew
        obtain ⟨extendedKeyed, finds⟩ := inductionHypothesis (keyed_insert keyed head) added
        refine ⟨extendedKeyed, fun key declaration => ?_⟩
        rw [finds key declaration, OrderedMap.get?_insert]
        by_cases same : key = head.key
        · rw [if_pos same]
          constructor
          · rintro (isHead | ⟨member, isKey⟩)
            · have isDeclaration := Option.some.inj isHead
              exact .inr ⟨by rw [isDeclaration]; exact List.mem_cons_self, by rw [← isDeclaration, same]⟩
            · exact .inr ⟨List.mem_cons_of_mem head member, isKey⟩
          · rintro (found | ⟨member, isKey⟩)
            · rw [same, isNew] at found
              cases found
            · rcases List.mem_cons.mp member with isHead | inTail
              · exact .inl (by rw [isHead])
              · exact .inr ⟨inTail, isKey⟩
        · rw [if_neg same]
          constructor
          · rintro (found | ⟨member, isKey⟩)
            · exact .inl found
            · exact .inr ⟨List.mem_cons_of_mem head member, isKey⟩
          · rintro (found | ⟨member, isKey⟩)
            · exact .inl found
            · rcases List.mem_cons.mp member with isHead | inTail
              · rw [← isKey, isHead] at same
                exact absurd rfl same
              · exact .inr ⟨inTail, isKey⟩

theorem classes_of_ofClasses (built : ofClasses declared = .ok index) :
    addAll ∅ declared = .ok index.classes := by
  obtain ⟨classes, added, rfl⟩ := Sequencing.map_eq_ok.mp built
  exact added

theorem keyed_of_ofClasses (built : ofClasses declared = .ok index) : Keyed index.classes :=
  (addAll_eq_ok keyed_empty (classes_of_ofClasses built)).1

/-- A key leads to the one declaration with that key. -/
theorem get?_classes_iff (built : ofClasses declared = .ok index) {key : String}
    {declaration : ClassDeclaration} :
    index.classes.get? key = some declaration ↔
      declaration ∈ declared ∧ declaration.key = key := by
  rw [(addAll_eq_ok keyed_empty (classes_of_ofClasses built)).2]
  constructor
  · rintro (found | indexed)
    · cases found
    · exact indexed
  · exact .inr

theorem mem_toList_of_get? {key : String} {declaration : ClassDeclaration}
    (found : index.classes.get? key = some declaration) : declaration ∈ index.toList :=
  List.mem_map_of_mem (OrderedMap.mem_of_get? found)

theorem get?_of_mem_toList (keyed : Keyed index.classes) {declaration : ClassDeclaration}
    (member : declaration ∈ index.toList) :
    index.classes.get? declaration.key = some declaration := by
  obtain ⟨⟨key, value⟩, inEntries, rfl⟩ := List.mem_map.mp member
  have found := OrderedMap.get?_of_mem inEntries
  rw [keyed key value found]
  exact found

/-- The indexed declarations are the given ones. -/
theorem mem_toList_iff (built : ofClasses declared = .ok index)
    {declaration : ClassDeclaration} : declaration ∈ index.toList ↔ declaration ∈ declared := by
  constructor
  · intro member
    have found := get?_of_mem_toList (keyed_of_ofClasses built) member
    exact ((get?_classes_iff built).mp found).1
  · intro member
    exact mem_toList_of_get? ((get?_classes_iff built).mpr ⟨member, rfl⟩)

/-- The declarations are listed in strictly increasing key order. -/
theorem increasing_toList (keyed : Keyed index.classes) :
    index.toList.Pairwise (fun left right => compare left.key right.key = .lt) := by
  have isKey : ∀ entry ∈ index.classes.entries, entry.2.key = entry.1 := by
    intro entry member
    exact keyed entry.1 entry.2 (OrderedMap.get?_of_mem member)
  unfold toList OrderedMap.values
  rw [List.pairwise_map]
  refine index.classes.increasing.imp_of_mem ?_
  intro left right leftMember rightMember below
  rw [isKey left leftMember, isKey right rightMember]
  exact below

end FactoryProxy.ClassIndex
