import FactoryProxy.Container.Emission

/-!
Contract: what the emission of factories does to a container.

Owns: the definitions of factories under their numbered names, how many of the
names are free in a row, and the container and the result after an emission.
-/

namespace FactoryProxy.Container

/-! ## Numbered names -/

theorem definitionName_injective {left right : Nat}
    (same : definitionName left = definitionName right) : left = right := by
  have sameRepr : toString left = toString right := String.append_right_inj _ |>.mp same
  have sameDigits : Nat.toDigits 10 left = Nat.toDigits 10 right := by
    rw [← Nat.toList_repr, ← Nat.toList_repr]
    exact congrArg String.toList sameRepr
  rw [← Nat.ofDigitChars_ten_toDigits (n := left), sameDigits, Nat.ofDigitChars_ten_toDigits]

/-- The definitions of factories under the names from a slot on. -/
def numberedFrom (slot : Nat) : List (String × String) → List (String × Definition)
  | [] => []
  | (interfaceName, className) :: rest =>
    (definitionName slot, factoryDefinition interfaceName className)
      :: numberedFrom (slot + 1) rest

@[simp] theorem length_numberedFrom (slot : Nat) (factories : List (String × String)) :
    (numberedFrom slot factories).length = factories.length := by
  induction factories generalizing slot with
  | nil => rfl
  | cons head tail inductionHypothesis =>
      simp only [numberedFrom, List.length_cons, inductionHypothesis]

/-- How many names in a row are free from a slot on, at most `count` of them. -/
def freeSlots (container : Container) (slot : Nat) : (count : Nat) → Nat
  | 0 => 0
  | count + 1 =>
    if container.hasDefinition (definitionName slot) then 0
    else container.freeSlots (slot + 1) count + 1

theorem freeSlots_le (container : Container) (slot count : Nat) :
    container.freeSlots slot count ≤ count := by
  induction count generalizing slot with
  | zero => exact Nat.le_refl 0
  | succ count inductionHypothesis =>
      unfold freeSlots
      split
      · exact Nat.zero_le _
      · exact Nat.succ_le_succ (inductionHypothesis (slot + 1))

/-- The names before the first taken one are free. -/
theorem hasDefinition_of_lt_freeSlots (container : Container) {slot count offset : Nat}
    (before : offset < container.freeSlots slot count) :
    container.hasDefinition (definitionName (slot + offset)) = false := by
  induction count generalizing slot offset with
  | zero => exact absurd before (Nat.not_lt_zero offset)
  | succ count inductionHypothesis =>
      unfold freeSlots at before
      by_cases taken : container.hasDefinition (definitionName slot) = true
      · rw [if_pos taken] at before
        exact absurd before (Nat.not_lt_zero offset)
      · rw [if_neg taken] at before
        cases offset with
        | zero => exact Bool.eq_false_iff.mpr taken
        | succ offset =>
            have free := inductionHypothesis (Nat.lt_of_succ_lt_succ before)
            rw [Nat.add_right_comm] at free
            exact free

/-- Free names that end early end at a taken one. -/
theorem hasDefinition_freeSlots (container : Container) {slot count : Nat}
    (early : container.freeSlots slot count < count) :
    container.hasDefinition (definitionName (slot + container.freeSlots slot count)) = true := by
  induction count generalizing slot with
  | zero => exact absurd early (Nat.not_lt_zero _)
  | succ count inductionHypothesis =>
      unfold freeSlots at early ⊢
      by_cases taken : container.hasDefinition (definitionName slot) = true
      · rw [if_pos taken]
        exact taken
      · rw [if_neg taken] at early ⊢
        have ends := inductionHypothesis (Nat.lt_of_succ_lt_succ early)
        rw [Nat.add_right_comm] at ends
        exact ends

theorem freeSlots_empty (slot count : Nat) : (∅ : Container).freeSlots slot count = count := by
  induction count generalizing slot with
  | zero => rfl
  | succ count inductionHypothesis =>
      show (∅ : Container).freeSlots (slot + 1) count + 1 = count + 1
      rw [inductionHypothesis]

/-! ## Emission -/

theorem hasDefinition_append (container : Container) (name other : String)
    (definition : Definition) (different : other ≠ name) :
    ({ container with definitions := container.definitions ++ [(name, definition)] } :
        Container).hasDefinition other = container.hasDefinition other := by
  have notLast : (other == name) = false := by simpa using different
  simp [hasDefinition, definition?, List.lookup_append, List.lookup_cons, notLast]

/-- A definition under one slot leaves the later slots as free as they were. -/
theorem freeSlots_append (container : Container) (definition : Definition)
    {slot later : Nat} (above : slot < later) (count : Nat) :
    ({ container with
        definitions := container.definitions ++ [(definitionName slot, definition)] } :
        Container).freeSlots later count = container.freeSlots later count := by
  induction count generalizing later with
  | zero => rfl
  | succ count inductionHypothesis =>
      have different : definitionName later ≠ definitionName slot :=
        fun same => Nat.ne_of_gt above (definitionName_injective same)
      unfold freeSlots
      rw [hasDefinition_append container _ _ definition different,
        inductionHypothesis (Nat.lt_succ_of_lt above)]

/-- An emission adds the definitions before the first taken name. It succeeds if
that is all of them. -/
theorem addFactories_eq (container : Container) (slot : Nat)
    (factories : List (String × String)) :
    container.addFactories slot factories =
      ({ container with
          definitions := container.definitions ++
            (numberedFrom slot factories).take (container.freeSlots slot factories.length) },
        if container.freeSlots slot factories.length = factories.length then
          .ok (slot + factories.length)
        else
          .error (.configuration (.repeatedService
            (definitionName (slot + container.freeSlots slot factories.length))))) := by
  induction factories generalizing container slot with
  | nil => simp [addFactories, numberedFrom, freeSlots]
  | cons head tail inductionHypothesis =>
      obtain ⟨interfaceName, className⟩ := head
      unfold addFactories addDefinition
      rw [List.length_cons]
      by_cases taken : container.hasDefinition (definitionName slot) = true
      · simp only [freeSlots, taken, if_true, List.take_zero, List.append_nil, Nat.add_zero]
        rw [if_neg (Nat.succ_ne_zero tail.length).symm]
      · simp only [freeSlots, taken, Bool.false_eq_true, if_false, numberedFrom,
          List.take_succ_cons]
        rw [inductionHypothesis, freeSlots_append container _ (Nat.lt_succ_self slot)]
        simp only [List.append_assoc, List.singleton_append, Nat.add_right_cancel_iff,
          Nat.add_assoc, Nat.add_comm 1]

theorem emit_eq (container : Container) (artifacts : List PersistedArtifact) :
    container.emit artifacts =
      ({ container with
          definitions := container.definitions ++ (numberedFrom 0 (factoriesOf artifacts)).take
            (container.freeSlots 0 (factoriesOf artifacts).length) },
        if container.freeSlots 0 (factoriesOf artifacts).length
            = (factoriesOf artifacts).length then
          .ok (factoriesOf artifacts).length
        else
          .error (.configuration (.repeatedService
            (definitionName (container.freeSlots 0 (factoriesOf artifacts).length))))) := by
  unfold emit
  rw [addFactories_eq]
  simp only [Nat.zero_add]

/-- Into an empty container every factory is emitted. -/
theorem emit_empty (artifacts : List PersistedArtifact) :
    (∅ : Container).emit artifacts =
      ({ (∅ : Container) with definitions := numberedFrom 0 (factoriesOf artifacts) },
        .ok (factoriesOf artifacts).length) := by
  rw [emit_eq, freeSlots_empty, if_pos rfl]
  have whole : (∅ : Container).definitions ++
      (numberedFrom 0 (factoriesOf artifacts)).take (factoriesOf artifacts).length =
        numberedFrom 0 (factoriesOf artifacts) := by
    apply List.take_of_length_le
    exact Nat.le_of_eq (length_numberedFrom 0 _)
  rw [whole]

end FactoryProxy.Container
