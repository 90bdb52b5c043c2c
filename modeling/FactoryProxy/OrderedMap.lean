/-!
Contract: finite maps whose order is the order of their keys.

An `OrderedMap` lists its entries in strictly increasing key order, so two maps
with the same entries are equal and a listing never depends on the history of
insertions. Keys may have several spellings that compare as equal; the spelling
inserted first is kept.

Owns: the type, insertion, lookup, merging and the set of keys.
-/

namespace FactoryProxy

/-- Entries in strictly increasing key order. -/
@[ext] structure OrderedMap (κ α : Type) [Ord κ] where
  entries : List (κ × α)
  increasing : entries.Pairwise (fun left right => compare left.1 right.1 = .lt)

namespace OrderedMap

variable {κ α : Type} [Ord κ]

instance [DecidableEq κ] [DecidableEq α] : DecidableEq (OrderedMap κ α) :=
  fun left right =>
    if same : left.entries = right.entries then isTrue (OrderedMap.ext same)
    else isFalse (fun equal => same (equal ▸ rfl))

instance [Repr κ] [Repr α] : Repr (OrderedMap κ α) :=
  ⟨fun map precedence => reprPrec map.entries precedence⟩

def empty : OrderedMap κ α := ⟨[], .nil⟩

instance : EmptyCollection (OrderedMap κ α) := ⟨empty⟩
instance : Inhabited (OrderedMap κ α) := ⟨empty⟩

/-- Puts a value at the place of its key. `merge` gives the value for a key that
is present from the old one; the key then keeps its spelling. -/
def upsertEntry (key : κ) (value : α) (merge : α → α) : List (κ × α) → List (κ × α)
  | [] => [(key, value)]
  | entry :: rest =>
    match compare key entry.1 with
    | .lt => (key, value) :: entry :: rest
    | .eq => (entry.1, merge entry.2) :: rest
    | .gt => entry :: upsertEntry key value merge rest

theorem mem_upsertEntry {key : κ} {value : α} {merge : α → α} {entries : List (κ × α)}
    {entry : κ × α} (member : entry ∈ upsertEntry key value merge entries) :
    entry = (key, value) ∨ ∃ old ∈ entries, entry.1 = old.1 := by
  induction entries with
  | nil => simp_all [upsertEntry]
  | cons head tail inductionHypothesis =>
      unfold upsertEntry at member
      split at member
      · rcases List.mem_cons.mp member with isNew | isOld
        · exact .inl isNew
        · exact .inr ⟨entry, isOld, rfl⟩
      · rcases List.mem_cons.mp member with isHead | inTail
        · exact .inr ⟨head, by simp, by simp [isHead]⟩
        · exact .inr ⟨entry, by simp [inTail], rfl⟩
      · rcases List.mem_cons.mp member with isHead | inTail
        · exact .inr ⟨head, by simp, by simp [isHead]⟩
        · rcases inductionHypothesis inTail with isNew | ⟨old, inOld, sameKey⟩
          · exact .inl isNew
          · exact .inr ⟨old, by simp [inOld], sameKey⟩

theorem increasing_upsertEntry [Std.TransOrd κ] (key : κ) (value : α) (merge : α → α)
    {entries : List (κ × α)}
    (increasing : entries.Pairwise (fun left right => compare left.1 right.1 = .lt)) :
    (upsertEntry key value merge entries).Pairwise
      (fun left right => compare left.1 right.1 = .lt) := by
  induction entries with
  | nil => simp [upsertEntry]
  | cons head tail inductionHypothesis =>
      have headBelow := (List.pairwise_cons.mp increasing).1
      have tailIncreasing := (List.pairwise_cons.mp increasing).2
      unfold upsertEntry
      split
      · rename_i below
        refine List.pairwise_cons.mpr ⟨fun entry member => ?_, increasing⟩
        rcases List.mem_cons.mp member with isHead | inTail
        · simpa [isHead] using below
        · exact Std.TransCmp.lt_trans below (headBelow entry inTail)
      · exact List.pairwise_cons.mpr ⟨headBelow, tailIncreasing⟩
      · rename_i above
        refine List.pairwise_cons.mpr ⟨fun entry member => ?_,
          inductionHypothesis tailIncreasing⟩
        rcases mem_upsertEntry member with isNew | ⟨old, inOld, sameKey⟩
        · simpa [isNew] using Std.OrientedCmp.gt_iff_lt.mp above
        · rw [sameKey]
          exact headBelow old inOld

variable [Std.TransOrd κ]

/-- The map with the key set to the value; a present key keeps its spelling. -/
def insert (map : OrderedMap κ α) (key : κ) (value : α) : OrderedMap κ α :=
  ⟨upsertEntry key value (fun _ => value) map.entries,
    increasing_upsertEntry key value _ map.increasing⟩

/-- The map with the key added; a present key keeps its spelling and value. -/
def insertNew (map : OrderedMap κ α) (key : κ) (value : α) : OrderedMap κ α :=
  ⟨upsertEntry key value id map.entries, increasing_upsertEntry key value _ map.increasing⟩

/-- Inserts from left to right, so the last value of a repeated key counts. -/
def ofList (entries : List (κ × α)) : OrderedMap κ α :=
  entries.foldl (fun map entry => map.insert entry.1 entry.2) empty

/-- The map of the listed entries, of those with equal keys the last one. -/
def ofListLast (entries : List (κ × α)) : OrderedMap κ α :=
  entries.foldr (fun entry map => map.insertNew entry.1 entry.2) empty

/-- The first map together with the entries of the second for new keys. -/
def union (left right : OrderedMap κ α) : OrderedMap κ α :=
  right.entries.foldl (fun map entry => map.insertNew entry.1 entry.2) left

omit [Std.TransOrd κ]

/-- The entry whose key compares as equal. -/
def entry? (map : OrderedMap κ α) (key : κ) : Option (κ × α) :=
  map.entries.find? (fun entry => compare key entry.1 == .eq)

def get? (map : OrderedMap κ α) (key : κ) : Option α :=
  (map.entry? key).map Prod.snd

def contains (map : OrderedMap κ α) (key : κ) : Bool :=
  (map.entry? key).isSome

def keys (map : OrderedMap κ α) : List κ :=
  map.entries.map Prod.fst

def values (map : OrderedMap κ α) : List α :=
  map.entries.map Prod.snd

def size (map : OrderedMap κ α) : Nat :=
  map.entries.length

def isEmpty (map : OrderedMap κ α) : Bool :=
  map.entries.isEmpty

def filter (keep : κ × α → Bool) (map : OrderedMap κ α) : OrderedMap κ α :=
  ⟨map.entries.filter keep, map.increasing.filter keep⟩

end OrderedMap

/-- Finite sets listed in increasing order. -/
abbrev OrderedSet (κ : Type) [Ord κ] := OrderedMap κ Unit

namespace OrderedSet

variable {κ : Type} [Ord κ]

/-- The set of the listed elements, each in the spelling that comes first. -/
def ofList [Std.TransOrd κ] (elements : List κ) : OrderedSet κ :=
  elements.foldl (fun set element => set.insertNew element ()) OrderedMap.empty

/-- The set of the listed elements, each in the spelling that comes last. -/
def ofListLast [Std.TransOrd κ] (elements : List κ) : OrderedSet κ :=
  OrderedMap.ofListLast (elements.map (fun element => (element, ())))

def toList (set : OrderedSet κ) : List κ := set.keys

end OrderedSet

end FactoryProxy
