import FactoryProxy.Proofs.OrderedMap.Lookup
import FactoryProxy.Proofs.OrderedMap.Rebuild
import Mathlib.Data.List.Perm.Basic

/-!
Contract: which spelling of a key an ordered map holds.

Keys that compare as equal are spellings of one key. A map that only adds new keys
keeps the spelling that came first, so a set made from a list is known by the first
element of each key.

Owns: the entry after an addition, the entries of sets made from lists, maps that are
equal because they answer alike, and sets that spell the same keys.
-/

namespace FactoryProxy

namespace OrderedMap

variable {κ α : Type} [Ord κ] [Std.TransOrd κ]

/-! ## Additions -/

theorem find?_upsertEntry_id (key other : κ) (value : α) {entries : List (κ × α)}
    (increasing : entries.Pairwise (fun left right => compare left.1 right.1 = .lt)) :
    (upsertEntry key value id entries).find? (fun entry => compare other entry.1 == .eq) =
      (entries.find? (fun entry => compare other entry.1 == .eq)).or
        (if compare other key == .eq then some (key, value) else none) := by
  induction entries with
  | nil => cases same : compare other key == .eq <;> simp [upsertEntry, same]
  | cons head tail inductionHypothesis =>
      have headBelow := (List.pairwise_cons.mp increasing).1
      have tailIncreasing := (List.pairwise_cons.mp increasing).2
      unfold upsertEntry
      split
      · rename_i below
        rw [List.find?_cons]
        cases same : compare other key == .eq with
        | false => simp
        | true =>
            -- All present keys are above the added one.
            have isKey : compare other key = .eq := by simpa using same
            have absent : (head :: tail).find? (fun entry => compare other entry.1 == .eq) =
                none := by
              apply List.find?_eq_none.mpr
              intro entry member
              have keyBelow : compare key entry.1 = .lt := by
                rcases List.mem_cons.mp member with isHead | inTail
                · rw [isHead]
                  exact below
                · exact Std.TransCmp.lt_trans below (headBelow entry inTail)
              simp [Std.TransCmp.lt_of_eq_of_lt isKey keyBelow]
            rw [absent]
            rfl
      · rename_i isHead
        cases same : compare other key == .eq with
        | false => simp
        | true =>
            have isKey : compare other key = .eq := by simpa using same
            have found : compare other head.1 = .eq := Std.TransCmp.eq_trans isKey isHead
            simp [found]
      · rw [List.find?_cons, List.find?_cons, inductionHypothesis tailIncreasing]
        cases compare other head.1 == .eq <;> simp

/-- An added key is found in its own spelling unless another one was there. -/
theorem entry?_insertNew (map : OrderedMap κ α) (key other : κ) (value : α) :
    entry? (map.insertNew key value) other =
      (map.entry? other).or (if compare other key == .eq then some (key, value) else none) :=
  find?_upsertEntry_id key other value map.increasing

theorem get?_insertNew (map : OrderedMap κ α) (key other : κ) (value : α) :
    get? (map.insertNew key value) other =
      (map.get? other).or (if compare other key == .eq then some value else none) := by
  unfold get?
  rw [entry?_insertNew, Option.map_or]
  cases compare other key == .eq <;> rfl

/-- Of entries that are added one by one, the first one of each key is found. -/
theorem entry?_foldl_insertNew (entries : List (κ × α)) (map : OrderedMap κ α) (key : κ) :
    entry? (entries.foldl (fun map entry => map.insertNew entry.1 entry.2) map) key =
      (map.entry? key).or (entries.find? (fun entry => compare key entry.1 == .eq)) := by
  induction entries generalizing map with
  | nil => simp
  | cons head tail inductionHypothesis =>
      rw [List.foldl_cons, inductionHypothesis, entry?_insertNew, Option.or_assoc, List.find?_cons]
      cases compare key head.1 == .eq <;> simp

/-- Merged maps keep the entries of the first one. -/
theorem entry?_union (left right : OrderedMap κ α) (key : κ) :
    OrderedMap.entry? (left.union right) key = (left.entry? key).or (right.entry? key) :=
  entry?_foldl_insertNew right.entries left key

/-- An entry is found under every spelling of its key. -/
theorem entry?_of_mem {map : OrderedMap κ α} {entry : κ × α} {key : κ}
    (member : entry ∈ map.entries) (same : compare key entry.1 = .eq) :
    map.entry? key = some entry := by
  obtain ⟨entries, increasing⟩ := map
  unfold entry?
  dsimp only at member ⊢
  induction entries with
  | nil => cases member
  | cons head tail inductionHypothesis =>
      obtain ⟨headBelow, tailIncreasing⟩ := List.pairwise_cons.mp increasing
      rcases List.mem_cons.mp member with isHead | inTail
      · rw [← isHead, List.find?_cons, same]
        rfl
      · have below : compare head.1 key = .lt :=
          Std.TransCmp.lt_of_lt_of_eq (headBelow entry inTail) (Std.OrientedCmp.eq_symm same)
        have above : compare key head.1 = .gt := Std.OrientedCmp.gt_iff_lt.mpr below
        rw [List.find?_cons, above]
        exact inductionHypothesis tailIncreasing inTail

/-! ## Maps that answer alike -/

omit [Std.TransOrd κ] in
/-- Where keys strictly increase nothing is listed twice. -/
theorem nodup_of_increasing [Std.ReflOrd κ] {elements : List α} {key : α → κ}
    (increasing : elements.Pairwise (fun left right => compare (key left) (key right) = .lt)) :
    elements.Nodup := by
  refine increasing.imp ?_
  rintro left right below rfl
  exact absurd (Std.ReflCmp.compare_self.symm.trans below) (by decide)

omit [Std.TransOrd κ] in
theorem nodup_entries [Std.ReflOrd κ] (map : OrderedMap κ α) : map.entries.Nodup :=
  nodup_of_increasing map.increasing

/-- Maps whose keys have one spelling are equal if they answer alike. -/
theorem eq_of_get? [Std.LawfulEqOrd κ] {left right : OrderedMap κ α}
    (alike : ∀ key, left.get? key = right.get? key) : left = right := by
  have sameMembers : ∀ entry, entry ∈ left.entries ↔ entry ∈ right.entries := by
    rintro ⟨key, value⟩
    constructor
    · intro member
      exact mem_of_get? ((alike key).symm.trans (get?_of_mem member))
    · intro member
      exact mem_of_get? ((alike key).trans (get?_of_mem member))
  have permuted : left.entries.Perm right.entries :=
    (List.perm_ext_iff_of_nodup left.nodup_entries right.nodup_entries).mpr sameMembers
  apply OrderedMap.ext
  refine permuted.eq_of_pairwise ?_ left.increasing right.increasing
  intro first second _ _ below above
  rw [Std.OrientedCmp.gt_of_lt above] at below
  cases below

end OrderedMap

namespace OrderedSet

variable {κ : Type} [Ord κ] [Std.TransOrd κ]

/-! ## Sets made from lists -/

theorem entry?_foldl (elements : List κ) (set : OrderedSet κ) (key : κ) :
    OrderedMap.entry? (elements.foldl (fun set element => set.insertNew element ()) set) key =
      (set.entry? key).or
        ((elements.find? (fun element => compare key element == .eq)).map (fun element =>
          (element, ()))) := by
  induction elements generalizing set with
  | nil => simp
  | cons head tail inductionHypothesis =>
      rw [List.foldl_cons, inductionHypothesis, OrderedMap.entry?_insertNew, Option.or_assoc,
        List.find?_cons]
      cases compare key head == .eq <;> simp

/-- Of equal elements the set holds the one that comes first. -/
theorem entry?_ofList (elements : List κ) (key : κ) :
    OrderedMap.entry? (ofList elements) key =
      (elements.find? (fun element => compare key element == .eq)).map (fun element =>
        (element, ())) := by
  unfold ofList
  rw [entry?_foldl]
  rfl

/-- A set made from a list contains a spelling of each element, whichever it keeps. -/
theorem contains_ofListLast_iff (elements : List κ) (key : κ) :
    (ofListLast elements).contains key = true ↔ ∃ element ∈ elements, compare key element = .eq := by
  unfold ofListLast OrderedMap.ofListLast
  induction elements with
  | nil => simp [OrderedMap.contains, OrderedMap.entry?, OrderedMap.empty]
  | cons head tail inductionHypothesis =>
      rw [List.map_cons, List.foldr_cons]
      unfold OrderedMap.contains at inductionHypothesis ⊢
      rw [OrderedMap.entry?_insertNew, Option.isSome_or, Bool.or_eq_true, inductionHypothesis]
      cases same : compare key head == .eq <;> simp_all

/-- A set made from a list has no spellings that the list does not have. -/
theorem mem_of_mem_toList_ofListLast {elements : List κ} {element : κ}
    (member : element ∈ (ofListLast elements).toList) : element ∈ elements := by
  unfold ofListLast OrderedMap.ofListLast at member
  induction elements with
  | nil => cases member
  | cons head tail inductionHypothesis =>
      obtain ⟨entry, isEntry, rfl⟩ := List.mem_map.mp member
      rcases OrderedMap.mem_insertNew isEntry with isNew | isOld
      · rw [isNew]
        exact List.mem_cons_self
      · exact List.mem_cons_of_mem head (inductionHypothesis (List.mem_map_of_mem isOld))

omit [Std.TransOrd κ] in
theorem contains_iff_mem_toList [Std.LawfulEqOrd κ] {set : OrderedSet κ} {element : κ} :
    set.contains element = true ↔ element ∈ set.toList := by
  unfold OrderedMap.contains OrderedMap.entry? toList OrderedMap.keys
  rw [List.find?_isSome, List.mem_map]
  constructor
  · rintro ⟨entry, member, same⟩
    refine ⟨entry, member, ?_⟩
    exact (Std.LawfulEqOrd.eq_of_compare (by simpa using same)).symm
  · rintro ⟨entry, member, rfl⟩
    exact ⟨entry, member, by simp⟩

/-- Sets whose elements have one spelling are equal if they contain the same. -/
theorem eq_of_contains [Std.LawfulEqOrd κ] {left right : OrderedSet κ}
    (alike : ∀ element, left.contains element = true ↔ right.contains element = true) :
    left = right := by
  apply OrderedMap.eq_of_get?
  intro element
  have same := Bool.eq_iff_iff.mpr (alike element)
  rw [OrderedMap.contains_eq_isSome, OrderedMap.contains_eq_isSome] at same
  cases isLeft : left.get? element <;> cases isRight : right.get? element <;> simp_all

/-! ## Sets of the same keys -/

/-- Every element of the first list has a spelling in the second one. -/
def Covers (rights lefts : List κ) : Prop :=
  ∀ left ∈ lefts, ∃ right ∈ rights, compare left right = .eq

/-- Increasing lists that cover each other spell the same keys in order. -/
theorem forall₂_of_covers {lefts rights : List κ}
    (leftIncreasing : lefts.Pairwise (fun left right => compare left right = .lt))
    (rightIncreasing : rights.Pairwise (fun left right => compare left right = .lt))
    (inRight : Covers rights lefts) (inLeft : Covers lefts rights) :
    List.Forall₂ (fun left right => compare left right = .eq) lefts rights := by
  induction lefts generalizing rights with
  | nil =>
      cases rights with
      | nil => exact .nil
      | cons right rest =>
          obtain ⟨_, nowhere, _⟩ := inLeft right List.mem_cons_self
          cases nowhere
  | cons left lefts inductionHypothesis =>
      obtain ⟨leftBelow, leftsIncreasing⟩ := List.pairwise_cons.mp leftIncreasing
      cases rights with
      | nil =>
          obtain ⟨_, nowhere, _⟩ := inRight left List.mem_cons_self
          cases nowhere
      | cons right rights =>
          obtain ⟨rightBelow, rightsIncreasing⟩ := List.pairwise_cons.mp rightIncreasing
          have sameHead : compare left right = .eq := by
            obtain ⟨other, isOther, same⟩ := inRight left List.mem_cons_self
            rcases List.mem_cons.mp isOther with rfl | inRights
            · exact same
            · obtain ⟨mate, isMate, sameMate⟩ := inLeft right List.mem_cons_self
              rcases List.mem_cons.mp isMate with rfl | inLefts
              · exact Std.OrientedCmp.eq_symm sameMate
              · -- Each head would be below the other one.
                have below : compare left left = .lt :=
                  Std.TransCmp.lt_trans
                    (Std.TransCmp.lt_of_lt_of_eq (leftBelow mate inLefts)
                      (Std.OrientedCmp.eq_symm sameMate))
                    (Std.TransCmp.lt_of_lt_of_eq (rightBelow other inRights)
                      (Std.OrientedCmp.eq_symm same))
                cases below.symm.trans Std.ReflCmp.compare_self
          refine .cons sameHead (inductionHypothesis leftsIncreasing rightsIncreasing ?_ ?_)
          · intro other isOther
            obtain ⟨mate, isMate, same⟩ := inRight other (List.mem_cons_of_mem left isOther)
            rcases List.mem_cons.mp isMate with rfl | inRights
            · have below := leftBelow other isOther
              rw [Std.TransCmp.eq_trans sameHead (Std.OrientedCmp.eq_symm same)] at below
              cases below
            · exact ⟨mate, inRights, same⟩
          · intro other isOther
            obtain ⟨mate, isMate, same⟩ := inLeft other (List.mem_cons_of_mem right isOther)
            rcases List.mem_cons.mp isMate with rfl | inLefts
            · have below := rightBelow other isOther
              rw [Std.OrientedCmp.eq_symm (Std.TransCmp.eq_trans same sameHead)] at below
              cases below
            · exact ⟨mate, inLefts, same⟩

theorem covers_ofList (elements : List κ) : Covers (ofList elements).toList elements := by
  intro element member
  have isFound : (OrderedMap.entry? (ofList elements) element).isSome = true := by
    rw [entry?_ofList, Option.isSome_map, List.find?_isSome]
    exact ⟨element, member, beq_iff_eq.mpr Std.ReflCmp.compare_self⟩
  obtain ⟨entry, found⟩ := Option.isSome_iff_exists.mp isFound
  refine ⟨entry.1, List.mem_map_of_mem (List.mem_of_find?_eq_some found), ?_⟩
  have spells := List.find?_some (p := fun other : κ × Unit => compare element other.1 == .eq) found
  exact eq_of_beq spells

theorem covers_toList {lefts rights : List κ} (covers : Covers rights lefts) :
    Covers (ofList rights).toList (ofList lefts).toList := by
  intro left member
  obtain ⟨right, isRight, same⟩ := covers left (mem_of_mem_toList_ofList member)
  obtain ⟨kept, isKept, sameKept⟩ := covers_ofList rights right isRight
  exact ⟨kept, isKept, Std.TransCmp.eq_trans same sameKept⟩

/-- Sets made from lists that cover each other spell the same keys. -/
theorem forall₂_ofList {lefts rights : List κ} (inRight : Covers rights lefts)
    (inLeft : Covers lefts rights) :
    List.Forall₂ (fun left right => compare left right = .eq) (ofList lefts).toList
      (ofList rights).toList :=
  forall₂_of_covers (increasing_toList _) (increasing_toList _) (covers_toList inRight)
    (covers_toList inLeft)

end OrderedSet

end FactoryProxy
