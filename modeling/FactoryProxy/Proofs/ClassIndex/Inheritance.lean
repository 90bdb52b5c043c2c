import FactoryProxy.Proofs.ClassIndex.Reachability

/-!
Contract: the constructor that a class has.

A class has its own constructor, or the one that its parent has. The chain of parents
may be cyclic; then no class on it need have a constructor.

Owns: the effective constructor, the agreement of the search with it, and what makes a
class instantiable.
-/

namespace FactoryProxy.ClassIndex

variable {index : ClassIndex} {declared : ClassDeclaration} {found : Constructor}

/-- The class declares the constructor or inherits it. -/
inductive EffectiveConstructor (index : ClassIndex) : ClassDeclaration → Constructor → Prop where
  | own {declared : ClassDeclaration} {constructor : Constructor}
      (declares : declared.constructor = some constructor) :
      EffectiveConstructor index declared constructor
  | inherited {declared above : ClassDeclaration} {parent : String} {constructor : Constructor}
      (silent : declared.constructor = none) (isParent : declared.parent = some parent)
      (indexed : index.get? parent = some above)
      (effective : EffectiveConstructor index above constructor) :
      EffectiveConstructor index declared constructor

/-- A class has one constructor at most. -/
theorem EffectiveConstructor.unique {left right : Constructor}
    (isLeft : EffectiveConstructor index declared left)
    (isRight : EffectiveConstructor index declared right) : left = right := by
  induction isLeft with
  | own declares =>
      cases isRight with
      | own declares' => exact Option.some.inj (declares.symm.trans declares')
      | inherited silent => exact absurd (declares.symm.trans silent) (Option.some_ne_none _)
  | inherited silent isParent indexed _ inductionHypothesis =>
      cases isRight with
      | own declares => exact absurd (declares.symm.trans silent) (Option.some_ne_none _)
      | inherited _ isParent' indexed' effective =>
          rw [Option.some.inj (isParent.symm.trans isParent'), indexed'] at indexed
          exact inductionHypothesis (Option.some.inj indexed ▸ effective)

/-! ## The chain of parents -/

theorem parentChain_of_unknown {unvisited : Unvisited} {parent : String}
    (isParent : declared.parent = some parent)
    (unknown : unvisited.lookup (Name.lookupKey parent) = none) :
    parentChain unvisited declared = [declared] := by
  rw [parentChain, isParent]
  dsimp only
  split
  · rfl
  · rename_i found
    rw [unknown] at found
    cases found

theorem parentChain_of_known {unvisited : Unvisited} {above : ClassDeclaration} {parent : String}
    (isParent : declared.parent = some parent)
    (found : unvisited.lookup (Name.lookupKey parent) = some above) :
    parentChain unvisited declared =
      declared :: parentChain (unvisited.without (Name.lookupKey parent)) above := by
  rw [parentChain, isParent]
  dsimp only
  split
  · rename_i unknown
    rw [found] at unknown
    cases unknown
  · rename_i same
    rw [found] at same
    rw [Option.some.inj same]

theorem mem_parentChain_self (unvisited : Unvisited) (declared : ClassDeclaration) :
    declared ∈ parentChain unvisited declared := by
  unfold parentChain
  split
  · exact List.mem_singleton_self declared
  · split
    · exact List.mem_singleton_self declared
    · exact List.mem_cons_self

/-- A constructor on the chain is the effective one. -/
theorem effective_of_parentChain (unvisited : Unvisited) (declared : ClassDeclaration)
    (known : ∀ key above, unvisited.lookup key = some above →
      index.classes.get? key = some above)
    (isFound : (parentChain unvisited declared).findSome? ClassDeclaration.constructor =
      some found) : EffectiveConstructor index declared found := by
  fun_induction parentChain unvisited declared with
  | case1 unvisited declared orphan =>
      rw [List.findSome?_singleton] at isFound
      exact .own isFound
  | case2 unvisited declared parent isParent unknown =>
      rw [List.findSome?_singleton] at isFound
      exact .own isFound
  | case3 unvisited declared parent isParent above isAbove _ inductionHypothesis =>
      rw [List.findSome?_cons] at isFound
      cases declares : declared.constructor with
      | some constructor =>
          rw [declares] at isFound
          exact .own (declares.trans isFound)
      | none =>
          rw [declares] at isFound
          refine .inherited declares isParent (known _ above isAbove) ?_
          apply inductionHypothesis _ isFound
          intro key other isOther
          rw [lookup_without] at isOther
          split at isOther
          · cases isOther
          · exact known key other isOther

/-- The chain leaves the visited classes and itself only for an unknown parent. -/
theorem parentChain_closed (unvisited : Unvisited) (declared : ClassDeclaration)
    (visited : List ClassDeclaration) (isVisited : declared ∈ visited)
    (complete : ∀ key above, index.classes.get? key = some above →
      unvisited.lookup key = some above ∨ above ∈ visited)
    {member above : ClassDeclaration} {parent : String}
    (onChain : member ∈ parentChain unvisited declared) (isParent : member.parent = some parent)
    (indexed : index.get? parent = some above) :
    above ∈ parentChain unvisited declared ∨ above ∈ visited := by
  fun_induction parentChain unvisited declared generalizing visited with
  | case1 unvisited declared orphan =>
      rw [List.mem_singleton.mp onChain, orphan] at isParent
      cases isParent
  | case2 unvisited declared known isKnown unknown =>
      rw [List.mem_singleton.mp onChain, isKnown] at isParent
      obtain rfl := Option.some.inj isParent
      rcases complete _ above indexed with isUnvisited | inVisited
      · rw [unknown] at isUnvisited
        cases isUnvisited
      · exact .inr inVisited
  | case3 unvisited declared known isKnown next isNext _ inductionHypothesis =>
      rcases List.mem_cons.mp onChain with isDeclared | further
      · rw [isDeclared, isKnown] at isParent
        obtain rfl := Option.some.inj isParent
        rcases complete _ above indexed with isUnvisited | inVisited
        · rw [isNext] at isUnvisited
          obtain rfl := Option.some.inj isUnvisited
          exact .inl (List.mem_cons_of_mem declared (mem_parentChain_self _ _))
        · exact .inr inVisited
      · have completeBelow : ∀ key above, index.classes.get? key = some above →
            (unvisited.without (Name.lookupKey known)).lookup key = some above ∨
              above ∈ next :: visited := by
          intro key other isOther
          rw [lookup_without]
          rcases complete key other isOther with isUnvisited | inVisited
          · by_cases same : key = Name.lookupKey known
            · rw [same, isNext] at isUnvisited
              exact .inr (by rw [Option.some.inj isUnvisited]; exact List.mem_cons_self)
            · rw [if_neg same]
              exact .inl isUnvisited
          · exact .inr (List.mem_cons_of_mem next inVisited)
        rcases inductionHypothesis (next :: visited) List.mem_cons_self completeBelow further with
          inChain | inVisited
        · exact .inl (List.mem_cons_of_mem declared inChain)
        · rcases List.mem_cons.mp inVisited with isNextClass | inVisited
          · rw [isNextClass]
            exact .inl (List.mem_cons_of_mem declared (mem_parentChain_self _ _))
          · exact .inr inVisited

/-- Where no class on a closed list declares a constructor, none is effective. -/
theorem not_effective_of_closed {chain : List ClassDeclaration}
    (silent : ∀ member ∈ chain, member.constructor = none)
    (closed : ∀ member ∈ chain, ∀ parent above, member.parent = some parent →
      index.get? parent = some above → above ∈ chain)
    (effective : EffectiveConstructor index declared found) : declared ∉ chain := by
  induction effective with
  | own declares =>
      intro onChain
      rw [silent _ onChain] at declares
      cases declares
  | inherited _ isParent indexed _ inductionHypothesis =>
      intro onChain
      exact inductionHypothesis (closed _ onChain _ _ isParent indexed)

/-! ## Indexed classes -/

/-- The search along the chain of parents gives the effective constructor. -/
theorem constructorOf_eq_some_iff (keyed : Keyed index.classes)
    (indexed : declared ∈ index.toList) :
    index.constructorOf declared = some found ↔ EffectiveConstructor index declared found := by
  have knownEntries : ∀ key above,
      (Unvisited.without index.classes.entries declared.key).lookup key = some above →
        index.classes.get? key = some above := by
    intro key above isAbove
    rw [lookup_without] at isAbove
    split at isAbove
    · cases isAbove
    · rw [OrderedMap.get?_eq_lookup]
      exact isAbove
  have sound : ∀ constructor, index.constructorOf declared = some constructor →
      EffectiveConstructor index declared constructor :=
    fun constructor isFound => effective_of_parentChain _ declared knownEntries isFound
  refine ⟨sound found, fun effective => ?_⟩
  cases searched : index.constructorOf declared with
  | some constructor => rw [(sound constructor searched).unique effective]
  | none =>
      have silent : ∀ member ∈ index.ancestors declared, member.constructor = none :=
        fun member onChain => List.findSome?_eq_none_iff.mp searched member onChain
      have complete : ∀ key above, index.classes.get? key = some above →
          (Unvisited.without index.classes.entries declared.key).lookup key = some above ∨
            above ∈ [declared] := by
        intro key above isAbove
        rw [lookup_without]
        by_cases same : key = declared.key
        · rw [same, get?_of_mem_toList keyed indexed] at isAbove
          exact .inr (by rw [Option.some.inj isAbove]; exact List.mem_singleton_self above)
        · rw [if_neg same, ← OrderedMap.get?_eq_lookup]
          exact .inl isAbove
      have closed : ∀ member ∈ index.ancestors declared, ∀ parent above,
          member.parent = some parent → index.get? parent = some above →
            above ∈ index.ancestors declared := by
        intro member onChain parent above isParent isAbove
        rcases parentChain_closed _ declared [declared] (List.mem_singleton_self declared) complete
          onChain isParent isAbove with inChain | isDeclared
        · exact inChain
        · rw [List.mem_singleton.mp isDeclared]
          exact mem_parentChain_self _ declared
      have notOnChain := not_effective_of_closed silent closed effective
      exact absurd (mem_parentChain_self _ declared) notOnChain

/-- A class is instantiable if it is concrete and its effective constructor, if there
is one, is public. -/
theorem isInstantiable_iff (keyed : Keyed index.classes) (indexed : declared ∈ index.toList) :
    index.isInstantiable declared = true ↔
      declared.kind = .classKind ∧ declared.isAbstract = false ∧
        ∀ constructor, EffectiveConstructor index declared constructor →
          constructor.visibility = .publicAccess := by
  unfold isInstantiable
  rw [Bool.and_eq_true, Bool.and_eq_true, beq_iff_eq, Bool.not_eq_true', Option.all_eq_true,
    and_assoc]
  simp only [beq_iff_eq, constructorOf_eq_some_iff keyed indexed]

end FactoryProxy.ClassIndex
