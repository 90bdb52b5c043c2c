import FactoryProxy.ClassIndex.Hierarchy
import FactoryProxy.Proofs.ClassIndex.Construction

/-!
Contract: the types above a declaration.

A type is above a declaration if a chain of names behind `extends` and `implements`
leads there. The search for such types visits every entry once and is exact, also
where the hierarchy is cyclic or leaves the index.

Owns: the chains, and the agreement of the search with them.
-/

namespace FactoryProxy.ClassIndex

/-! ## Chains -/

/-- A chain of one or more names leads from the declaration to the key. Every name
but the last one is indexed. -/
inductive Reaches (index : ClassIndex) : ClassDeclaration → String → Prop where
  | direct {declared : ClassDeclaration} {key : String}
      (named : key ∈ declared.supertypeKeys) : Reaches index declared key
  | through {declared above : ClassDeclaration} {middle key : String}
      (named : middle ∈ declared.supertypeKeys)
      (indexed : index.classes.get? middle = some above)
      (further : Reaches index above key) : Reaches index declared key

theorem Reaches.extend {index : ClassIndex} {declared above : ClassDeclaration}
    {middle key : String} (reaches : Reaches index declared middle)
    (indexed : index.classes.get? middle = some above)
    (named : key ∈ above.supertypeKeys) : Reaches index declared key := by
  induction reaches with
  | direct isNamed => exact .through isNamed indexed (.direct named)
  | through isNamed isIndexed _ inductionHypothesis =>
      exact .through isNamed isIndexed (inductionHypothesis indexed)

/-! ## The search -/

/-- A key is pending, or an unvisited entry that is linked names it. -/
inductive Linked (unvisited : Unvisited) (pending : List String) : String → Prop where
  | start {key : String} (member : key ∈ pending) : Linked unvisited pending key
  | step {key above : String} {declared : ClassDeclaration}
      (linked : Linked unvisited pending key)
      (found : unvisited.lookup key = some declared)
      (named : above ∈ declared.supertypeKeys) : Linked unvisited pending above

theorem lookup_without (entries : Unvisited) (key other : String) :
    (entries.without key).lookup other = if other = key then none else entries.lookup other :=
  OrderedMap.lookup_filter_ne entries key other

variable {unvisited : Unvisited} {pending rest : List String} {key other : String}
  {declared : ClassDeclaration}

/-- A pending key that no entry stands under links nothing but itself. -/
theorem linked_cons_of_unknown (unknown : unvisited.lookup key = none) :
    Linked unvisited (key :: rest) other ↔ other = key ∨ Linked unvisited rest other := by
  constructor
  · intro linked
    induction linked with
    | start member =>
        rcases List.mem_cons.mp member with isKey | inRest
        · exact .inl isKey
        · exact .inr (.start inRest)
    | step _ found named inductionHypothesis =>
        rcases inductionHypothesis with rfl | linked
        · rw [unknown] at found
          cases found
        · exact .inr (.step linked found named)
  · rintro (rfl | linked)
    · exact .start List.mem_cons_self
    · induction linked with
      | start member => exact .start (List.mem_cons_of_mem key member)
      | step _ found named inductionHypothesis => exact .step inductionHypothesis found named

/-- A pending key with an entry links what the entry names, and the entry need not be
visited again. -/
theorem linked_cons_of_known (known : unvisited.lookup key = some declared) :
    Linked unvisited (key :: rest) other ↔
      other = key ∨ Linked (unvisited.without key) (rest ++ declared.supertypeKeys) other := by
  constructor
  · intro linked
    induction linked with
    | start member =>
        rcases List.mem_cons.mp member with isKey | inRest
        · exact .inl isKey
        · exact .inr (.start (List.mem_append_left _ inRest))
    | @step middle above visited _ found named inductionHypothesis =>
        -- A way that comes back to the key goes on with its names, which are pending.
        by_cases again : middle = key
        · rw [again, known] at found
          rw [← Option.some.inj found] at named
          exact .inr (.start (List.mem_append_right rest named))
        · have linked := inductionHypothesis.resolve_left again
          refine .inr (.step linked ?_ named)
          rw [lookup_without, if_neg again]
          exact found
  · rintro (rfl | linked)
    · exact .start List.mem_cons_self
    · induction linked with
      | start member =>
          rcases List.mem_append.mp member with inRest | named
          · exact .start (List.mem_cons_of_mem key inRest)
          · exact .step (.start List.mem_cons_self) known named
      | step _ found named inductionHypothesis =>
          rw [lookup_without] at found
          split at found
          · cases found
          · exact .step inductionHypothesis found named

/-- The search finds exactly the linked keys. -/
theorem mem_reached_iff (unvisited : Unvisited) (pending : List String) (key : String) :
    key ∈ reached unvisited pending ↔ Linked unvisited pending key := by
  fun_induction reached unvisited pending with
  | case1 unvisited =>
      constructor
      · intro member
        cases member
      · intro linked
        induction linked with
        | start member => exact member
        | step _ _ _ inductionHypothesis => cases inductionHypothesis
  | case2 unvisited head rest unknown inductionHypothesis =>
      rw [List.mem_cons, linked_cons_of_unknown unknown, inductionHypothesis]
  | case3 unvisited head rest declared known _ inductionHypothesis =>
      rw [List.mem_cons, linked_cons_of_known known, inductionHypothesis]

/-! ## Supertypes -/

/-- Below linked names every chain ends at a linked key. -/
theorem Reaches.linked {index : ClassIndex} (reaches : Reaches index declared key)
    (named : ∀ name ∈ declared.supertypeKeys, Linked index.classes.entries pending name) :
    Linked index.classes.entries pending key := by
  induction reaches with
  | direct member => exact named _ member
  | through member indexed _ inductionHypothesis =>
      rw [OrderedMap.get?_eq_lookup] at indexed
      exact inductionHypothesis (fun name isNamed => .step (named _ member) indexed isNamed)

theorem linked_iff_reaches (index : ClassIndex) (declared : ClassDeclaration) (key : String) :
    Linked index.classes.entries declared.supertypeKeys key ↔ Reaches index declared key := by
  constructor
  · intro linked
    induction linked with
    | start member => exact .direct member
    | step _ found named inductionHypothesis =>
        rw [← OrderedMap.get?_eq_lookup] at found
        exact inductionHypothesis.extend found named
  · intro reaches
    exact reaches.linked (fun name member => .start member)

/-- The supertypes of a declaration are the types above it. -/
theorem contains_supertypes_iff (index : ClassIndex) (declared : ClassDeclaration)
    (key : String) :
    (index.supertypes declared).contains key = true ↔ Reaches index declared key := by
  unfold supertypes
  rw [OrderedSet.contains_ofList, mem_reached_iff, linked_iff_reaches]

theorem isSubclassOf_iff (index : ClassIndex) (declared : ClassDeclaration) (target : String) :
    index.isSubclassOf declared target = true ↔ Reaches index declared (Name.lookupKey target) :=
  contains_supertypes_iff index declared (Name.lookupKey target)

end FactoryProxy.ClassIndex
