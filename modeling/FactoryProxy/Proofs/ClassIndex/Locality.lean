import FactoryProxy.Proofs.ClassIndex.Ancestry
import FactoryProxy.Proofs.Selection

/-!
Contract: the answers about a class depend on its ancestry alone.

Two indexes may hold whatever they want elsewhere. Where they agree on the keys above a
class, every chain of the one is a chain of the other, so the supertypes, the parent
chain and the artifact of the class are the same.

Owns: agreement above a declaration, and what is the same under it.
-/

namespace FactoryProxy.ClassIndex

variable {index other : ClassIndex} {declared above : ClassDeclaration} {middle key : String}

/-- Both indexes give the same answer for each key above the declaration. -/
def AgreesAbove (index other : ClassIndex) (declared : ClassDeclaration) : Prop :=
  ∀ key, Reaches index declared key → index.classes.get? key = other.classes.get? key

/-! ## Supertypes -/

/-- What is above a supertype is above the declaration. -/
theorem AgreesAbove.next (agree : AgreesAbove index other declared)
    (named : middle ∈ declared.supertypeKeys) (indexed : index.classes.get? middle = some above) :
    AgreesAbove index other above := by
  intro key reaches
  exact agree key (.through named indexed reaches)

theorem reaches_congr (agree : AgreesAbove index other declared) :
    Reaches index declared key ↔ Reaches other declared key := by
  constructor
  · intro reaches
    induction reaches with
    | direct named => exact .direct named
    | through named indexed _ inductionHypothesis =>
        have inOther := (agree _ (.direct named)).symm.trans indexed
        exact .through named inOther (inductionHypothesis (agree.next named indexed))
  · intro reaches
    induction reaches with
    | direct named => exact .direct named
    | through named inOther _ inductionHypothesis =>
        have indexed := (agree _ (.direct named)).trans inOther
        exact .through named indexed (inductionHypothesis (agree.next named indexed))

theorem supertypes_congr (agree : AgreesAbove index other declared) :
    index.supertypes declared = other.supertypes declared := by
  apply OrderedSet.eq_of_contains
  intro key
  rw [contains_supertypes_iff, contains_supertypes_iff]
  exact reaches_congr agree

theorem ancestryFiles_congr (agree : AgreesAbove index other declared) :
    index.ancestryFiles declared = other.ancestryFiles declared := by
  have sameFiles : (index.supertypes declared).toList.filterMap (fun key =>
        (index.classes.get? key).map ClassDeclaration.file) =
      (index.supertypes declared).toList.filterMap (fun key =>
        (other.classes.get? key).map ClassDeclaration.file) := by
    apply List.filterMap_congr
    intro key member
    rw [agree key (mem_supertypes_iff.mp member)]
  unfold ancestryFiles
  rw [sameFiles, supertypes_congr agree]

/-! ## Parents -/

theorem mem_supertypeKeys_of_parent {parent : String} (isParent : declared.parent = some parent) :
    Name.lookupKey parent ∈ declared.supertypeKeys := by
  apply List.mem_map_of_mem
  simp [ClassDeclaration.supertypeNames, isParent]

/-- The chain of parents asks for no key that is not above the declaration. -/
theorem parentChain_congr {unvisited remaining : Unvisited} (declared : ClassDeclaration)
    (known : ∀ key above, unvisited.lookup key = some above →
      index.classes.get? key = some above)
    (alike : ∀ key, Reaches index declared key → unvisited.lookup key = remaining.lookup key) :
    parentChain unvisited declared = parentChain remaining declared := by
  fun_induction parentChain unvisited declared generalizing remaining with
  | case1 unvisited declared orphan =>
      rw [parentChain, orphan]
  | case2 unvisited declared parent isParent unknown =>
      have same := alike _ (.direct (mem_supertypeKeys_of_parent isParent))
      exact (parentChain_of_unknown isParent (same.symm.trans unknown)).symm
  | case3 unvisited declared parent isParent above found _ inductionHypothesis =>
      have named := mem_supertypeKeys_of_parent isParent
      have same := alike _ (.direct named)
      rw [parentChain_of_known isParent (same.symm.trans found)]
      congr 1
      apply inductionHypothesis
      · intro key next isNext
        rw [lookup_without] at isNext
        split at isNext
        · cases isNext
        · exact known key next isNext
      · intro key reaches
        rw [lookup_without, lookup_without, alike key (.through named (known _ _ found) reaches)]

theorem ancestors_congr (agree : AgreesAbove index other declared) :
    index.ancestors declared = other.ancestors declared := by
  apply @parentChain_congr index
  · intro key above found
    rw [lookup_without] at found
    split at found
    · cases found
    · rw [OrderedMap.get?_eq_lookup]
      exact found
  · intro key reaches
    have same := agree key reaches
    rw [OrderedMap.get?_eq_lookup, OrderedMap.get?_eq_lookup] at same
    rw [lookup_without, lookup_without, same]

theorem constructorOf_congr (agree : AgreesAbove index other declared) :
    index.constructorOf declared = other.constructorOf declared := by
  unfold constructorOf
  rw [ancestors_congr agree]

theorem isInstantiable_congr (agree : AgreesAbove index other declared) :
    index.isInstantiable declared = other.isInstantiable declared := by
  unfold isInstantiable
  rw [constructorOf_congr agree]

/-! ## Targets and artifacts -/

theorem matchedBy_congr (agree : AgreesAbove index other declared) (targets : TargetTypes) :
    targets.matchedBy index declared = targets.matchedBy other declared := by
  have sameAnswers : index.isSubclassOf declared = other.isSubclassOf declared := by
    funext target
    unfold isSubclassOf
    rw [supertypes_congr agree]
  unfold TargetTypes.matchedBy
  rw [sameAnswers]

theorem ofClass_congr (agree : AgreesAbove index other declared) (namespaceName : String) :
    Artifact.ofClass index namespaceName declared =
      Artifact.ofClass other namespaceName declared := by
  unfold Artifact.ofClass Artifact.callerParameters
  rw [constructorOf_congr agree, ancestryFiles_congr agree]

/-- Indexes that give the same answers for the supertypes of a class agree on the class:
on its supertypes, its files, its constructor, whether it can be instantiated, the target
it matches and its artifact. -/
theorem answers_local
    (agree : ∀ key ∈ (index.supertypes declared).toList,
      index.classes.get? key = other.classes.get? key) :
    index.supertypes declared = other.supertypes declared ∧
      index.ancestryFiles declared = other.ancestryFiles declared ∧
      index.constructorOf declared = other.constructorOf declared ∧
      index.isInstantiable declared = other.isInstantiable declared ∧
      (∀ targets : TargetTypes,
        targets.matchedBy index declared = targets.matchedBy other declared) ∧
      ∀ namespaceName, Artifact.ofClass index namespaceName declared =
        Artifact.ofClass other namespaceName declared := by
  have agreeAbove : AgreesAbove index other declared := by
    intro key reaches
    exact agree key (mem_supertypes_iff.mpr reaches)
  refine ⟨supertypes_congr agreeAbove, ancestryFiles_congr agreeAbove,
    constructorOf_congr agreeAbove, isInstantiable_congr agreeAbove, ?_, ?_⟩
  · intro targets
    exact matchedBy_congr agreeAbove targets
  · intro namespaceName
    exact ofClass_congr agreeAbove namespaceName

/-- A class on a cycle of parents, with the other class of the cycle and the class that
extends it. -/
def crowdedIndex : ClassIndex :=
  ⟨.ofList ((⟨"E", .classKind, false, some "C", [], none, ⟨"e.php"⟩, 1⟩ ::
    TargetTypes.mutualClasses).map (fun declared => (declared.key, declared))), [⟨"e.php"⟩]⟩

/-- A new subclass and a new file change nothing for a class whose cycle of parents leads
back to it. -/
theorem cycle_unchanged_by_subclass :
    ∃ declared, crowdedIndex.get? "C" = some declared ∧
      (∀ key ∈ (TargetTypes.mutualIndex.supertypes declared).toList,
        TargetTypes.mutualIndex.classes.get? key = crowdedIndex.classes.get? key) ∧
      declared.key ∈ (crowdedIndex.supertypes declared).toList ∧
      ∀ namespaceName, Artifact.ofClass TargetTypes.mutualIndex namespaceName declared =
        Artifact.ofClass crowdedIndex namespaceName declared := by
  have agree : ∀ key ∈ (TargetTypes.mutualIndex.supertypes
        ⟨"C", .classKind, false, some "d", [], none, ⟨"c.php"⟩, 1⟩).toList,
      TargetTypes.mutualIndex.classes.get? key = crowdedIndex.classes.get? key := by
    decide +kernel
  refine ⟨⟨"C", .classKind, false, some "d", [], none, ⟨"c.php"⟩, 1⟩, by decide +kernel, agree,
    by decide +kernel, ?_⟩
  intro namespaceName
  exact (answers_local agree).2.2.2.2.2 namespaceName

end FactoryProxy.ClassIndex
