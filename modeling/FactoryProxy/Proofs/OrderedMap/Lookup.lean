import FactoryProxy.OrderedMap

/-!
Contract: what an ordered map answers after its operations.

Owns: the agreement of look-up and entries, the look-up after an insertion or without a
key, maps with changed values, and the members of a set made from a list. The keys have one
spelling.

Does not own: the entries of a map made from a list, which `OrderedMap.Rebuild` gives.
-/

namespace FactoryProxy

namespace OrderedMap

variable {κ α : Type} [Ord κ] [Std.TransOrd κ] [Std.LawfulEqOrd κ]

/-! ## Look-up and entries -/

omit [Std.TransOrd κ] in
theorem mem_of_get? {map : OrderedMap κ α} {key : κ} {value : α}
    (found : map.get? key = some value) : (key, value) ∈ map.entries := by
  obtain ⟨entry, isFound, isValue⟩ := Option.map_eq_some_iff.mp found
  have sameKey : key = entry.1 := by
    have equal := List.find?_some isFound
    exact Std.LawfulEqOrd.eq_of_compare (by simpa using equal)
  have member := List.mem_of_find?_eq_some isFound
  rw [sameKey, ← isValue]
  exact member

theorem get?_of_mem {map : OrderedMap κ α} {key : κ} {value : α}
    (member : (key, value) ∈ map.entries) : map.get? key = some value := by
  obtain ⟨entries, increasing⟩ := map
  simp only [get?, entry?] at *
  induction entries with
  | nil => simp at member
  | cons head tail inductionHypothesis =>
      have headBelow := (List.pairwise_cons.mp increasing).1
      rcases List.mem_cons.mp member with isHead | inTail
      · rw [← isHead]
        simp
      · have below : compare head.1 key = .lt := headBelow (key, value) inTail
        have above : compare key head.1 = .gt := Std.OrientedCmp.gt_iff_lt.mpr below
        rw [List.find?_cons, above]
        exact inductionHypothesis (List.pairwise_cons.mp increasing).2 inTail

omit [Std.TransOrd κ] in
/-- The look-up is the one of association lists. -/
theorem get?_eq_lookup [BEq κ] [LawfulBEq κ] (map : OrderedMap κ α) (key : κ) :
    map.get? key = map.entries.lookup key := by
  obtain ⟨entries, increasing⟩ := map
  simp only [get?, entry?]
  clear increasing
  induction entries with
  | nil => rfl
  | cons head tail inductionHypothesis =>
      rw [List.find?_cons, List.lookup_cons]
      by_cases same : key = head.1
      · simp [same]
      · have different : (compare key head.1 == .eq) = false := by
          simpa using fun equal => same (Std.LawfulEqOrd.eq_of_compare equal)
        have notHead : (key == head.1) = false := by simpa using same
        rw [different, notHead]
        exact inductionHypothesis

omit [Ord κ] [Std.TransOrd κ] [Std.LawfulEqOrd κ] in
/-- An association list without the entries of a key finds nothing under it. -/
theorem lookup_filter_ne [BEq κ] [LawfulBEq κ] [DecidableEq κ] (entries : List (κ × α))
    (key other : κ) :
    (entries.filter (fun entry => entry.1 != key)).lookup other =
      if other = key then none else entries.lookup other := by
  induction entries with
  | nil => simp
  | cons head tail inductionHypothesis =>
      rw [List.filter_cons]
      by_cases dropped : head.1 = key
      · have isDropped : (head.1 != key) = false := by simpa using dropped
        rw [isDropped, if_neg Bool.false_ne_true, inductionHypothesis, List.lookup_cons]
        by_cases same : other = key
        · rw [if_pos same, if_pos same]
        · have notHead : (other == head.1) = false := by
            rw [dropped]
            simpa using same
          rw [if_neg same, if_neg same, notHead]
      · have isKept : (head.1 != key) = true := by simpa using dropped
        rw [isKept, if_pos rfl, List.lookup_cons, List.lookup_cons, inductionHypothesis]
        by_cases isHead : other = head.1
        · rw [isHead, BEq.rfl]
          exact (if_neg dropped).symm
        · have notHead : (other == head.1) = false := by simpa using isHead
          rw [notHead]

/-! ## Insertion -/

omit [Std.TransOrd κ] in
theorem find?_upsertEntry_other {key other : κ} (different : other ≠ key) (value : α)
    (merge : α → α) (entries : List (κ × α)) :
    ((upsertEntry key value merge entries).find? (fun entry => compare other entry.1 == .eq)).map
        Prod.snd =
      (entries.find? (fun entry => compare other entry.1 == .eq)).map Prod.snd := by
  have notKey : (compare other key == .eq) = false := by
    simpa using fun equal => different (Std.LawfulEqOrd.eq_of_compare equal)
  induction entries with
  | nil => simp [upsertEntry, notKey]
  | cons head tail inductionHypothesis =>
      unfold upsertEntry
      split
      · rw [List.find?_cons, notKey]
      · rename_i same
        have sameKey : key = head.1 := Std.LawfulEqOrd.eq_of_compare same
        rw [List.find?_cons, List.find?_cons, ← sameKey, notKey]
      · rw [List.find?_cons, List.find?_cons]
        cases compare other head.1 == .eq with
        | true => rfl
        | false => exact inductionHypothesis

omit [Std.TransOrd κ] in
theorem find?_upsertEntry_same (key : κ) (value : α) (entries : List (κ × α)) :
    ((upsertEntry key value (fun _ => value) entries).find?
        (fun entry => compare key entry.1 == .eq)).map Prod.snd = some value := by
  induction entries with
  | nil => simp [upsertEntry]
  | cons head tail inductionHypothesis =>
      unfold upsertEntry
      split
      · simp
      · rename_i same
        simp [same]
      · rename_i above
        rw [List.find?_cons, above]
        exact inductionHypothesis

/-- Insertion changes the look-up at one key. -/
theorem get?_insert [DecidableEq κ] (map : OrderedMap κ α) (key other : κ) (value : α) :
    (map.insert key value).get? other = if other = key then some value else map.get? other := by
  by_cases same : other = key
  · rw [if_pos same, same]
    exact find?_upsertEntry_same key value map.entries
  · rw [if_neg same]
    exact find?_upsertEntry_other same value _ map.entries

omit [Std.TransOrd κ] [Std.LawfulEqOrd κ] in
theorem contains_eq_isSome (map : OrderedMap κ α) (key : κ) :
    map.contains key = (map.get? key).isSome := by
  simp [contains, get?]

omit [Std.LawfulEqOrd κ] in
theorem isSome_find?_upsertEntry_same (key : κ) (value : α) (merge : α → α)
    (entries : List (κ × α)) :
    ((upsertEntry key value merge entries).find?
      (fun entry => compare key entry.1 == .eq)).isSome = true := by
  induction entries with
  | nil => simp [upsertEntry]
  | cons head tail inductionHypothesis =>
      unfold upsertEntry
      split
      · simp
      · rename_i same
        simp [same]
      · rename_i above
        rw [List.find?_cons, above]
        exact inductionHypothesis

theorem contains_insertNew (map : OrderedMap κ α) (key other : κ) (value : α) :
    (map.insertNew key value).contains other = true ↔ other = key ∨ map.contains other = true := by
  by_cases same : other = key
  · rw [same]
    have present : (map.insertNew key value).contains key = true :=
      isSome_find?_upsertEntry_same key value id map.entries
    exact ⟨fun _ => .inl rfl, fun _ => present⟩
  · have unchanged := find?_upsertEntry_other same value id map.entries
    have agree : (map.insertNew key value).contains other = map.contains other := by
      rw [contains_eq_isSome, contains_eq_isSome]
      exact congrArg Option.isSome unchanged
    rw [agree]
    exact ⟨.inr, fun either => either.resolve_left same⟩

/-! ## Changed values -/

section Values

variable {β : Type}

/-- The map with every value changed. -/
def mapValues (change : α → β) (map : OrderedMap κ α) : OrderedMap κ β :=
  ⟨map.entries.map (fun entry => (entry.1, change entry.2)), List.pairwise_map.mpr map.increasing⟩

omit [Std.TransOrd κ] [Std.LawfulEqOrd κ] in
theorem get?_mapValues (change : α → β) (map : OrderedMap κ α) (key : κ) :
    (map.mapValues change).get? key = (map.get? key).map change := by
  simp only [get?, entry?, mapValues]
  induction map.entries with
  | nil => rfl
  | cons head tail inductionHypothesis =>
      rw [List.map_cons, List.find?_cons, List.find?_cons]
      cases compare key head.1 == .eq with
      | true => rfl
      | false => exact inductionHypothesis

end Values

end OrderedMap

namespace OrderedSet

variable {κ : Type} [Ord κ] [Std.TransOrd κ] [Std.LawfulEqOrd κ]

/-- A set made from a list contains the elements of the list. -/
theorem contains_ofList (elements : List κ) (element : κ) :
    (ofList elements).contains element = true ↔ element ∈ elements := by
  have general : ∀ (rest : List κ) (set : OrderedSet κ),
      (rest.foldl (fun set element => set.insertNew element ()) set).contains element = true ↔
        element ∈ rest ∨ set.contains element = true := by
    intro rest
    induction rest with
    | nil => simp
    | cons head tail inductionHypothesis =>
        intro set
        rw [List.foldl_cons, inductionHypothesis, OrderedMap.contains_insertNew, List.mem_cons]
        constructor
        · rintro (inTail | isHead | inSet)
          · exact .inl (.inr inTail)
          · exact .inl (.inl isHead)
          · exact .inr inSet
        · rintro ((isHead | inTail) | inSet)
          · exact .inr (.inl isHead)
          · exact .inl inTail
          · exact .inr (.inr inSet)
  unfold ofList
  rw [general]
  simp [OrderedMap.contains, OrderedMap.entry?, OrderedMap.empty]

end OrderedSet

end FactoryProxy
