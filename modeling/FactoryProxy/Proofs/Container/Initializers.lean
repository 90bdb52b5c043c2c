import FactoryProxy.Proofs.Container.Changes

/-!
Contract: the order of the steps of a container.

A step is put in front of all others unless it is among them already. One that is among
them stays where it is, which may be behind others.

Owns: the steps after one has been put in front, and when that one runs first.
-/

namespace FactoryProxy

namespace Initializer

variable {left middle right : Initializer}

theorem same_self (initializer : Initializer) : initializer.same initializer = true := by
  simp [same, Path.same]

theorem same_trans (first : left.same middle = true) (second : middle.same right = true) :
    left.same right = true := by
  simp only [same, Path.same, Bool.and_eq_true, beq_iff_eq] at first second ⊢
  exact ⟨first.1.trans second.1, first.2.trans second.2⟩

/-- Of steps that all differ, at most one is the given step. -/
theorem countP_same_le_one {initializers : List Initializer}
    (apart : initializers.Pairwise (fun left right => left.same right = false))
    (initializer : Initializer) :
    initializers.countP (fun other => other.same initializer) ≤ 1 := by
  induction initializers with
  | nil => exact Nat.zero_le 1
  | cons head tail inductionHypothesis =>
      obtain ⟨headApart, tailApart⟩ := List.pairwise_cons.mp apart
      by_cases isHead : head.same initializer = true
      · have absent : tail.countP (fun other => other.same initializer) = 0 := by
          refine List.countP_eq_zero.mpr (fun other member isOther => ?_)
          have same := same_trans isHead (same_symm isOther)
          rw [headApart other member] at same
          cases same
        rw [List.countP_cons, absent]
        simp [isHead]
      · rw [List.countP_cons, if_neg isHead]
        exact inductionHypothesis tailApart

end Initializer

namespace Container

variable {container : Container} {initializer : Initializer}

/-! ## Steps in order -/

/-- The step is among those of the container. -/
def HasStep (container : Container) (initializer : Initializer) : Prop :=
  ∃ present ∈ container.initializers, present.same initializer = true

/-- The step is the first one of the container. -/
def RunsFirst (container : Container) (initializer : Initializer) : Prop :=
  ∃ first, container.initializers.head? = some first ∧ first.same initializer = true

theorem RunsFirst.hasStep (runsFirst : container.RunsFirst initializer) :
    container.HasStep initializer := by
  obtain ⟨first, isFirst, same⟩ := runsFirst
  exact ⟨first, List.mem_of_mem_head? isFirst, same⟩

theorem prependInitializer_of_hasStep (hasStep : container.HasStep initializer) :
    container.prependInitializer initializer = container :=
  if_pos (List.any_eq_true.mpr hasStep)

theorem prependInitializer_of_new (isNew : ¬ container.HasStep initializer) :
    container.prependInitializer initializer =
      { container with initializers := initializer :: container.initializers } :=
  if_neg (fun present => isNew (List.any_eq_true.mp present))

/-- A step that is put in front runs first exactly if it was new or ran first before. -/
theorem runsFirst_prependInitializer_iff (container : Container) (initializer : Initializer) :
    (container.prependInitializer initializer).RunsFirst initializer ↔
      (container.HasStep initializer → container.RunsFirst initializer) := by
  by_cases hasStep : container.HasStep initializer
  · rw [prependInitializer_of_hasStep hasStep]
    exact ⟨fun runsFirst _ => runsFirst, fun runsFirst => runsFirst hasStep⟩
  · rw [prependInitializer_of_new hasStep]
    exact ⟨fun _ present => absurd present hasStep,
      fun _ => ⟨initializer, rfl, initializer.same_self⟩⟩

/-- A step that is put in front is there once. -/
theorem countP_prependInitializer (distinct : container.Distinct) (initializer : Initializer) :
    (container.prependInitializer initializer).initializers.countP
      (fun other => other.same initializer) = 1 := by
  by_cases hasStep : container.HasStep initializer
  · rw [prependInitializer_of_hasStep hasStep]
    exact Nat.le_antisymm (Initializer.countP_same_le_one distinct.initializers initializer)
      (List.countP_pos_iff.mpr hasStep)
  · have absent : container.initializers.countP (fun other => other.same initializer) = 0 :=
      List.countP_eq_zero.mpr (fun present member same => hasStep ⟨present, member, same⟩)
    rw [prependInitializer_of_new hasStep, List.countP_cons, absent,
      if_pos initializer.same_self]

/-- The other steps stay in their order. -/
theorem filter_prependInitializer (container : Container) (initializer : Initializer) :
    (container.prependInitializer initializer).initializers.filter
        (fun other => !other.same initializer) =
      container.initializers.filter (fun other => !other.same initializer) := by
  by_cases hasStep : container.HasStep initializer
  · rw [prependInitializer_of_hasStep hasStep]
  · rw [prependInitializer_of_new hasStep]
    refine List.filter_cons_of_neg ?_
    rw [initializer.same_self]
    exact Bool.false_ne_true

/-- In a built container, a step that is put in front runs first exactly if it was not among
the steps behind another one. It is there once, and the others stay in their order. -/
theorem prepended_step_runs_first_iff (changes : List Change) (initializer : Initializer) :
    (((builtBy changes).prependInitializer initializer).RunsFirst initializer ↔
      ((builtBy changes).HasStep initializer → (builtBy changes).RunsFirst initializer)) ∧
    ((builtBy changes).prependInitializer initializer).initializers.countP
      (fun other => other.same initializer) = 1 ∧
    ((builtBy changes).prependInitializer initializer).initializers.filter
        (fun other => !other.same initializer) =
      (builtBy changes).initializers.filter (fun other => !other.same initializer) := by
  have distinct : (builtBy changes).Distinct :=
    (continues_foldl ∅ changes).distinct distinct_empty
  exact ⟨runsFirst_prependInitializer_iff _ initializer,
    countP_prependInitializer distinct initializer, filter_prependInitializer _ initializer⟩

/-- A step that is put in front again stays behind the one that was put in front since. -/
theorem step_prepended_again_stays_behind :
    ¬ ((builtBy [.prependInitializer ⟨⟨"/a"⟩, "A"⟩, .prependInitializer ⟨⟨"/b"⟩, "B"⟩]
      ).prependInitializer ⟨⟨"/a"⟩, "A"⟩).RunsFirst ⟨⟨"/a"⟩, "A"⟩ := by
  rintro ⟨first, isFirst, same⟩
  have isSecond : ((builtBy [.prependInitializer ⟨⟨"/a"⟩, "A"⟩,
      .prependInitializer ⟨⟨"/b"⟩, "B"⟩]).prependInitializer
        ⟨⟨"/a"⟩, "A"⟩).initializers.head? = some ⟨⟨"/b"⟩, "B"⟩ := by
    decide +kernel
  obtain rfl := Option.some.inj (isFirst.symm.trans isSecond)
  revert same
  decide +kernel

end Container

end FactoryProxy
