import FactoryProxy.OrderedMap

/-!
Contract: maps made again from their own entries.

Owns: the entries of maps and sets that are made from increasing lists, whatever the
order in which a construction takes the list. Keys may have several spellings here.
-/

namespace FactoryProxy

namespace OrderedMap

variable {κ α : Type} [Ord κ] [Std.TransOrd κ]

/-- Entries whose keys strictly increase. -/
def Increasing (entries : List (κ × α)) : Prop :=
  entries.Pairwise (fun left right => compare left.1 right.1 = .lt)

omit [Std.TransOrd κ] in
theorem eq_of_entries {left right : OrderedMap κ α} (same : left.entries = right.entries) :
    left = right :=
  OrderedMap.ext same

/-- An entry above all others is put behind them. -/
theorem upsertEntry_above {key : κ} {value : α} {merge : α → α} {entries : List (κ × α)}
    (below : ∀ entry ∈ entries, compare entry.1 key = .lt) :
    upsertEntry key value merge entries = entries ++ [(key, value)] := by
  induction entries with
  | nil => rfl
  | cons head tail inductionHypothesis =>
      have above : compare key head.1 = .gt :=
        Std.OrientedCmp.gt_iff_lt.mpr (below head List.mem_cons_self)
      have tailBelow := inductionHypothesis
        (fun entry member => below entry (List.mem_cons_of_mem head member))
      unfold upsertEntry
      rw [above, tailBelow]
      rfl

omit [Std.TransOrd κ] in
/-- An entry below all others is put in front of them. -/
theorem upsertEntry_below {key : κ} {value : α} {merge : α → α} {entries : List (κ × α)}
    (above : ∀ entry ∈ entries, compare key entry.1 = .lt) :
    upsertEntry key value merge entries = (key, value) :: entries := by
  cases entries with
  | nil => rfl
  | cons head tail =>
      unfold upsertEntry
      rw [above head List.mem_cons_self]

omit [Std.TransOrd κ] in
theorem mem_upsertEntry_id {key : κ} {value : α} {entries : List (κ × α)} {entry : κ × α}
    (member : entry ∈ upsertEntry key value id entries) :
    entry = (key, value) ∨ entry ∈ entries := by
  induction entries with
  | nil => exact .inl (List.mem_singleton.mp member)
  | cons head tail inductionHypothesis =>
      unfold upsertEntry at member
      split at member
      · exact List.mem_cons.mp member
      · exact .inr member
      · rcases List.mem_cons.mp member with isHead | inTail
        · rw [isHead]
          exact .inr List.mem_cons_self
        · exact (inductionHypothesis inTail).imp id (List.mem_cons_of_mem head)

/-- An entry after an addition is the new one or was there. -/
theorem mem_insertNew {map : OrderedMap κ α} {key : κ} {value : α} {entry : κ × α}
    (member : entry ∈ (map.insertNew key value).entries) :
    entry = (key, value) ∨ entry ∈ map.entries :=
  mem_upsertEntry_id member

omit [Std.TransOrd κ] in
/-- Entries added from left to right in increasing order stay in that order. -/
theorem entries_foldl (add : OrderedMap κ α → κ × α → OrderedMap κ α)
    (adds : ∀ map entry, (∀ present ∈ map.entries, compare present.1 entry.1 = .lt) →
      (add map entry).entries = map.entries ++ [entry])
    (map : OrderedMap κ α) {rest : List (κ × α)} (increasing : Increasing (map.entries ++ rest)) :
    (rest.foldl add map).entries = map.entries ++ rest := by
  induction rest generalizing map with
  | nil => exact (List.append_nil map.entries).symm
  | cons head tail inductionHypothesis =>
      have below : ∀ present ∈ map.entries, compare present.1 head.1 = .lt :=
        fun present member =>
          (List.pairwise_append.mp increasing).2.2 present member head List.mem_cons_self
      have added := adds map head below
      have whole : (add map head).entries ++ tail = map.entries ++ head :: tail := by
        rw [added, List.append_assoc]
        rfl
      rw [List.foldl_cons, inductionHypothesis _ (by rw [whole]; exact increasing), whole]

theorem entries_ofList {entries : List (κ × α)} (increasing : Increasing entries) :
    (ofList entries).entries = entries :=
  entries_foldl _ (fun _ _ below => upsertEntry_above below) empty increasing

/-- A map is made again from its entries. -/
@[simp] theorem ofList_entries (map : OrderedMap κ α) : ofList map.entries = map :=
  eq_of_entries (entries_ofList map.increasing)

/-- The last of equal keys counts, which changes nothing if there are none. -/
theorem entries_ofListLast {entries : List (κ × α)} (increasing : Increasing entries) :
    (ofListLast entries).entries = entries := by
  unfold ofListLast
  induction entries with
  | nil => rfl
  | cons head tail inductionHypothesis =>
      obtain ⟨above, tailIncreasing⟩ := List.pairwise_cons.mp increasing
      have tailEntries := inductionHypothesis tailIncreasing
      show upsertEntry head.1 head.2 id (tail.foldr (fun entry map =>
        map.insertNew entry.1 entry.2) empty).entries = head :: tail
      rw [tailEntries]
      exact upsertEntry_below above

@[simp] theorem empty_union (map : OrderedMap κ α) : (∅ : OrderedMap κ α).union map = map :=
  eq_of_entries (entries_foldl _ (fun _ _ below => upsertEntry_above below) ∅ map.increasing)

end OrderedMap

namespace OrderedSet

variable {κ : Type} [Ord κ] [Std.TransOrd κ]

theorem entries_ofList {elements : List κ}
    (increasing : elements.Pairwise (fun left right => compare left right = .lt)) :
    (ofList elements).entries = elements.map (fun element => (element, ())) := by
  have increasingEntries :
      OrderedMap.Increasing (elements.map (fun element => (element, ()))) :=
    List.pairwise_map.mpr increasing
  have built := OrderedMap.entries_foldl (fun set entry => set.insertNew entry.1 ())
    (fun _ _ below => OrderedMap.upsertEntry_above below) OrderedMap.empty increasingEntries
  rw [List.foldl_map] at built
  exact built

theorem toList_ofList {elements : List κ}
    (increasing : elements.Pairwise (fun left right => compare left right = .lt)) :
    (ofList elements).toList = elements := by
  show (ofList elements).entries.map Prod.fst = elements
  rw [entries_ofList increasing, List.map_map]
  exact List.map_id elements

/-- A set made from a list has no spellings that the list does not have. -/
theorem mem_of_mem_toList_ofList {elements : List κ} {element : κ}
    (member : element ∈ (ofList elements).toList) : element ∈ elements := by
  have general : ∀ (rest : List κ) (set : OrderedSet κ),
      element ∈ (rest.foldl (fun set element => set.insertNew element ()) set).toList →
        element ∈ rest ∨ element ∈ set.toList := by
    intro rest
    induction rest with
    | nil => exact fun set inSet => .inr inSet
    | cons head tail inductionHypothesis =>
        intro set inFold
        rcases inductionHypothesis _ inFold with inTail | inInserted
        · exact .inl (List.mem_cons_of_mem head inTail)
        · obtain ⟨entry, isEntry, rfl⟩ := List.mem_map.mp inInserted
          rcases OrderedMap.mem_insertNew isEntry with isNew | isOld
          · rw [isNew]
            exact .inl List.mem_cons_self
          · exact .inr (List.mem_map_of_mem isOld)
  rcases general elements OrderedMap.empty member with inElements | inEmpty
  · exact inElements
  · cases inEmpty

omit [Std.TransOrd κ] in
theorem increasing_toList (set : OrderedSet κ) :
    set.toList.Pairwise (fun left right => compare left right = .lt) :=
  List.pairwise_map.mpr set.increasing

end OrderedSet

end FactoryProxy
