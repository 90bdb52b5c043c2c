import FactoryProxy.FileSystem.Change
import Mathlib.Data.List.Forall2

/-!
Contract: computations that run one after another and stop at the first failure.

Owns: lists with the same elements, the elements and the selections of lists that are related
one by one, and what success and failure of a sequence say about its parts, for results, for
optional values and for changes of the file system.
-/

namespace FactoryProxy.Sequencing

variable {α β ε ε' : Type}

/-! ## Lists with the same elements -/

/-- The lists have the same elements. Neither order nor repetition counts. -/
def SameElements (lefts rights : List α) : Prop :=
  ∀ element, element ∈ lefts ↔ element ∈ rights

instance [DecidableEq α] (lefts rights : List α) : Decidable (SameElements lefts rights) :=
  decidable_of_iff (lefts ⊆ rights ∧ rights ⊆ lefts)
    ⟨fun subsets _ => ⟨fun isLeft => subsets.1 isLeft, fun isRight => subsets.2 isRight⟩,
      fun same => ⟨fun _ isLeft => (same _).mp isLeft, fun _ isRight => (same _).mpr isRight⟩⟩

theorem SameElements.symm {lefts rights : List α} (same : SameElements lefts rights) :
    SameElements rights lefts :=
  fun element => (same element).symm

theorem SameElements.any {lefts rights : List α} (same : SameElements lefts rights)
    (test : α → Bool) : lefts.any test = rights.any test := by
  rw [Bool.eq_iff_iff, List.any_eq_true, List.any_eq_true]
  exact exists_congr (fun element => and_congr_left' (same element))

/-! ## Lists related element by element -/

section Related

variable {relation : α → β → Prop} {lefts : List α} {rights : List β}

theorem exists_left (related : List.Forall₂ relation lefts rights) {right : β}
    (member : right ∈ rights) : ∃ left ∈ lefts, relation left right := by
  induction related with
  | nil => cases member
  | cons isRelated _ inductionHypothesis =>
      rcases List.mem_cons.mp member with isHead | inTail
      · rw [isHead]
        exact ⟨_, List.mem_cons_self, isRelated⟩
      · obtain ⟨left, isLeft, isTailRelated⟩ := inductionHypothesis inTail
        exact ⟨left, List.mem_cons_of_mem _ isLeft, isTailRelated⟩

theorem exists_right (related : List.Forall₂ relation lefts rights) {left : α}
    (member : left ∈ lefts) : ∃ right ∈ rights, relation left right := by
  induction related with
  | nil => cases member
  | cons isRelated _ inductionHypothesis =>
      rcases List.mem_cons.mp member with isHead | inTail
      · rw [isHead]
        exact ⟨_, List.mem_cons_self, isRelated⟩
      · obtain ⟨right, isRight, isTailRelated⟩ := inductionHypothesis inTail
        exact ⟨right, List.mem_cons_of_mem _ isRight, isTailRelated⟩

/-- A relation between the elements of two lists may use that they are elements. -/
theorem forall₂_of_mem {other : α → β → Prop} (related : List.Forall₂ relation lefts rights)
    (implies : ∀ left ∈ lefts, ∀ right ∈ rights, relation left right → other left right) :
    List.Forall₂ other lefts rights := by
  obtain ⟨sameLength, pairs⟩ := List.forall₂_iff_zip.mp related
  refine List.forall₂_iff_zip.mpr ⟨sameLength, fun {left right} member => ?_⟩
  obtain ⟨isLeft, isRight⟩ := List.of_mem_zip member
  exact implies left isLeft right isRight (pairs member)

/-- If nothing is kept of an element, nothing is kept of the one related to it. -/
def KeepsNoMore {γ δ : Type} (relation : α → β → Prop) (keep : α → Option γ)
    (keepOther : β → Option δ) : Prop :=
  ∀ left right, relation left right → keep left = none → keepOther right = none

variable {γ δ : Type} {keep : α → Option γ} {keepOther : β → Option δ} {same : γ → δ → Prop}

theorem length_filterMap_le (related : List.Forall₂ relation lefts rights)
    (noMore : KeepsNoMore relation keep keepOther) :
    (rights.filterMap keepOther).length ≤ (lefts.filterMap keep).length := by
  induction related with
  | nil => exact Nat.le_refl 0
  | @cons left right _ _ isRelated _ inductionHypothesis =>
      rw [List.filterMap_cons, List.filterMap_cons]
      cases isKept : keep left with
      | none =>
          rw [noMore left right isRelated isKept]
          exact inductionHypothesis
      | some kept =>
          cases keepOther right with
          | none => exact Nat.le_succ_of_le inductionHypothesis
          | some other => exact Nat.succ_le_succ inductionHypothesis

/-- Where no more is kept of the second list, the two selections are alike exactly if they are
at every place: what is gone at one place is not made up for at another. -/
theorem forall₂_filterMap_iff {alike : α → β → Prop}
    (related : List.Forall₂ relation lefts rights) (noMore : KeepsNoMore relation keep keepOther)
    (decides : ∀ left right, relation left right →
      (Option.Rel same (keep left) (keepOther right) ↔ alike left right)) :
    List.Forall₂ same (lefts.filterMap keep) (rights.filterMap keepOther) ↔
      List.Forall₂ alike lefts rights := by
  induction related with
  | nil => simp
  | @cons left right leftRest rightRest isRelated ofRest inductionHypothesis =>
      rw [List.filterMap_cons, List.filterMap_cons, List.forall₂_cons, ← inductionHypothesis,
        ← decides left right isRelated]
      cases isKept : keep left with
      | none => simp [noMore left right isRelated isKept]
      | some kept =>
          cases isOther : keepOther right with
          | none =>
              have shorter := length_filterMap_le ofRest noMore
              constructor
              · intro sameKept
                have lengths : (leftRest.filterMap keep).length + 1 =
                    (rightRest.filterMap keepOther).length := sameKept.length_eq
                omega
              · rintro ⟨placed, _⟩
                cases placed
          | some other => simp [List.forall₂_cons]

end Related

/-! ## Results -/

theorem isOk_iff_exists {result : Except ε α} :
    result.isOk = true ↔ ∃ value, result = .ok value := by
  cases result <;> simp [Except.isOk, Except.toBool]

theorem bind_eq_ok {first : Except ε α} {next : α → Except ε β} {result : β} :
    (first >>= next) = .ok result ↔ ∃ value, first = .ok value ∧ next value = .ok result := by
  cases first with
  | ok value => simp [Bind.bind, Except.bind]
  | error failure => simp [Bind.bind, Except.bind]

theorem bind_eq_error {first : Except ε α} {next : α → Except ε β} {failure : ε} :
    (first >>= next) = .error failure ↔
      first = .error failure ∨ ∃ value, first = .ok value ∧ next value = .error failure := by
  cases first with
  | ok value => simp [Bind.bind, Except.bind]
  | error cause => simp [Bind.bind, Except.bind]

theorem map_eq_ok {first : Except ε α} {change : α → β} {result : β} :
    first.map change = .ok result ↔ ∃ value, first = .ok value ∧ change value = result := by
  cases first with
  | ok value => simp [Except.map]
  | error failure => simp [Except.map]

theorem map_eq_error {first : Except ε α} {change : α → β} {failure : ε} :
    first.map change = .error failure ↔ first = .error failure := by
  cases first with
  | ok value => simp [Except.map]
  | error cause => simp [Except.map]

theorem mapError_eq_ok {first : Except ε α} {explain : ε → ε'} {result : α} :
    first.mapError explain = .ok result ↔ first = .ok result := by
  cases first with
  | ok value => simp [Except.mapError]
  | error failure => simp [Except.mapError]

/-- A traversal succeeds with the results of all elements in order. -/
theorem mapM_eq_ok {visit : α → Except ε β} {elements : List α} {results : List β} :
    elements.mapM visit = .ok results ↔
      List.Forall₂ (fun element result => visit element = .ok result) elements results := by
  induction elements generalizing results with
  | nil =>
      rw [List.mapM_nil, List.forall₂_nil_left_iff]
      constructor
      · intro finished
        exact (Except.ok.inj finished).symm
      · intro isEmpty
        rw [isEmpty]
        rfl
  | cons head tail inductionHypothesis =>
      rw [List.mapM_cons, bind_eq_ok, List.forall₂_cons_left_iff]
      constructor
      · rintro ⟨value, visited, rest⟩
        obtain ⟨values, finished, same⟩ := bind_eq_ok.mp rest
        exact ⟨value, values, visited, inductionHypothesis.mp finished,
          (Except.ok.inj same).symm⟩
      · rintro ⟨value, values, visited, related, same⟩
        refine ⟨value, visited, bind_eq_ok.mpr ⟨values, inductionHypothesis.mpr related, ?_⟩⟩
        rw [same]
        rfl

theorem mapM_congr {visit other : α → Except ε β} {elements : List α}
    (same : ∀ element ∈ elements, visit element = other element) :
    elements.mapM visit = elements.mapM other := by
  induction elements with
  | nil => rfl
  | cons head tail inductionHypothesis =>
      obtain ⟨sameHead, sameTail⟩ := List.forall_mem_cons.mp same
      rw [List.mapM_cons, List.mapM_cons, sameHead, inductionHypothesis sameTail]

/-- A traversal fails as one of its elements does. -/
theorem exists_of_mapM_error {visit : α → Except ε β} {elements : List α} {failure : ε}
    (failed : elements.mapM visit = .error failure) :
    ∃ element ∈ elements, visit element = .error failure := by
  induction elements with
  | nil => cases failed
  | cons head tail inductionHypothesis =>
      rw [List.mapM_cons] at failed
      rcases bind_eq_error.mp failed with headFailed | ⟨_, _, rest⟩
      · exact ⟨head, List.mem_cons_self, headFailed⟩
      · rcases bind_eq_error.mp rest with tailFailed | ⟨_, _, finished⟩
        · obtain ⟨element, member, elementFailed⟩ := inductionHypothesis tailFailed
          exact ⟨element, List.mem_cons_of_mem head member, elementFailed⟩
        · cases finished

/-- A traversal fails exactly if one of its elements does. -/
theorem mapM_eq_error {visit : α → Except ε β} {elements : List α} :
    (∃ failure, elements.mapM visit = .error failure) ↔
      ∃ element ∈ elements, ∃ failure, visit element = .error failure := by
  constructor
  · rintro ⟨failure, failed⟩
    obtain ⟨element, member, elementFailed⟩ := exists_of_mapM_error failed
    exact ⟨element, member, failure, elementFailed⟩
  · rintro ⟨element, member, failure, elementFailed⟩
    cases visited : elements.mapM visit with
    | error cause => exact ⟨cause, rfl⟩
    | ok results =>
        obtain ⟨result, _, isResult⟩ := exists_right (mapM_eq_ok.mp visited) member
        cases elementFailed.symm.trans isResult

theorem mapM_isOk {visit : α → Except ε β} {elements : List α}
    (succeeds : ∀ element ∈ elements, ∃ result, visit element = .ok result) :
    ∃ results, elements.mapM visit = .ok results := by
  cases visited : elements.mapM visit with
  | ok results => exact ⟨results, rfl⟩
  | error failure =>
      obtain ⟨element, member, cause, failed⟩ := mapM_eq_error.mp ⟨failure, visited⟩
      obtain ⟨result, succeeded⟩ := succeeds element member
      rw [failed] at succeeded
      cases succeeded

/-- Where all elements of a list were traversed, any of them can be, with results that were
among the former ones. -/
theorem mapM_of_subset {visit : α → Except ε β} {elements others : List α} {results : List β}
    (visited : elements.mapM visit = .ok results) (subset : others ⊆ elements) :
    ∃ otherResults, others.mapM visit = .ok otherResults ∧ otherResults ⊆ results := by
  have related := mapM_eq_ok.mp visited
  have succeeds : ∀ other ∈ others, ∃ result, visit other = .ok result := by
    intro other member
    obtain ⟨result, _, isResult⟩ := exists_right related (subset member)
    exact ⟨result, isResult⟩
  obtain ⟨otherResults, visitedOthers⟩ := mapM_isOk succeeds
  refine ⟨otherResults, visitedOthers, fun result member => ?_⟩
  obtain ⟨other, isOther, isResult⟩ := exists_left (mapM_eq_ok.mp visitedOthers) member
  obtain ⟨former, isFormer, wasResult⟩ := exists_right related (subset isOther)
  rw [Except.ok.inj (isResult.symm.trans wasResult)]
  exact isFormer

/-- Traversals of the same elements succeed together, with the same results. -/
theorem mapM_of_sameElements {visit : α → Except ε β} {elements others : List α}
    {results : List β} (same : SameElements elements others)
    (visited : elements.mapM visit = .ok results) :
    ∃ otherResults, others.mapM visit = .ok otherResults ∧ SameElements results otherResults := by
  obtain ⟨otherResults, visitedOthers, inResults⟩ :=
    mapM_of_subset visited (fun other member => (same other).mpr member)
  obtain ⟨again, visitedAgain, inOthers⟩ :=
    mapM_of_subset visitedOthers (fun element member => (same element).mp member)
  obtain rfl := Except.ok.inj (visited.symm.trans visitedAgain)
  exact ⟨otherResults, visitedOthers, fun _ =>
    ⟨fun isResult => inOthers isResult, fun isOther => inResults isOther⟩⟩

/-! ## Optional values -/

/-- A traversal that reads back what was made from each element gives the elements. -/
theorem mapM_map_eq_some {make : α → β} {read : β → Option α} {elements : List α}
    (reads : ∀ element ∈ elements, read (make element) = some element) :
    (elements.map make).mapM read = some elements := by
  induction elements with
  | nil => rfl
  | cons head tail inductionHypothesis =>
      have readsHead := reads head List.mem_cons_self
      have readsTail := inductionHypothesis
        (fun element member => reads element (List.mem_cons_of_mem head member))
      rw [List.map_cons, List.mapM_cons, readsHead, readsTail]
      rfl

/-! ## Changes of the file system -/

open FileSystem (Action)

variable {files middle after : FileSystem}

theorem run_bind_ok {first : Action ε α} {next : α → Action ε β} {value : α}
    (ran : first files = (.ok value, middle)) : (first >>= next) files = next value middle := by
  show StateT.bind first (ExceptT.bindCont next) files = _
  unfold StateT.bind
  rw [ran]
  rfl

theorem run_bind_error {first : Action ε α} {next : α → Action ε β} {failure : ε}
    (ran : first files = (.error failure, middle)) :
    (first >>= next) files = (.error failure, middle) := by
  show StateT.bind first (ExceptT.bindCont next) files = _
  unfold StateT.bind
  rw [ran]
  rfl

/-- Two changes in sequence succeed if both do, the second one from where the
first one ended. -/
theorem run_bind_eq_ok {first : Action ε α} {next : α → Action ε β} {result : β} :
    (first >>= next) files = (.ok result, after) ↔
      ∃ value middle, first files = (.ok value, middle) ∧
        next value middle = (.ok result, after) := by
  rcases ran : first files with ⟨outcome, middle⟩
  cases outcome with
  | ok value =>
      rw [run_bind_ok ran]
      constructor
      · intro finished
        exact ⟨value, middle, rfl, finished⟩
      · rintro ⟨value', middle', same, finished⟩
        cases same
        exact finished
  | error failure =>
      rw [run_bind_error ran]
      constructor
      · intro finished
        cases finished
      · rintro ⟨value, middle', same, _⟩
        cases same

theorem run_restate_eq_ok {action : Action ε α} {explain : ε → ε'} {result : α} :
    (action.restate explain) files = (.ok result, after) ↔ action files = (.ok result, after) := by
  unfold Action.restate
  rcases action files with ⟨outcome, middle⟩
  cases outcome with
  | ok value =>
      constructor
      · intro same
        cases same
        rfl
      · intro same
        cases same
        rfl
  | error failure =>
      constructor
      · intro same
        cases same
      · intro same
        cases same

theorem run_inspect_eq_ok {question : FileSystem → Except ε α} {result : α} :
    Action.inspect question files = (.ok result, after) ↔
      question files = .ok result ∧ after = files := by
  show (question files, files) = (.ok result, after) ↔ _
  rw [Prod.mk.injEq, eq_comm (a := files)]

theorem run_inspect_bind {question : FileSystem → Except ε α} {next : α → Action ε β} :
    (Action.inspect question >>= next) files =
      match question files with
      | .ok value => next value files
      | .error failure => (.error failure, files) := by
  have inspected : Action.inspect question files = (question files, files) := rfl
  split
  · rename_i value asked
    rw [asked] at inspected
    exact run_bind_ok inspected
  · rename_i failure asked
    rw [asked] at inspected
    exact run_bind_error inspected

/-- A question behind a change leaves what the change left, and fails only by itself or as
the change does. -/
theorem run_then_inspect {γ : Type} (first : Action ε α) (question : α → FileSystem → Except ε β)
    (combine : α → β → γ) (files : FileSystem) :
    ((first >>= fun value => Action.inspect (question value) >>= fun answer =>
        pure (combine value answer)) files).2 = (first files).2 ∧
      ∀ failure, ((first >>= fun value => Action.inspect (question value) >>= fun answer =>
          pure (combine value answer)) files).1 = .error failure →
        (first files).1 = .error failure ∨
          ∃ value, question value (first files).2 = .error failure := by
  rcases ran : first files with ⟨outcome, middle⟩
  cases outcome with
  | error cause =>
      rw [run_bind_error ran]
      refine ⟨rfl, fun failure failed => .inl ?_⟩
      rw [Except.error.inj failed]
  | ok value =>
      rw [run_bind_ok ran, run_inspect_bind]
      split
      · refine ⟨rfl, fun failure failed => ?_⟩
        cases failed
      · rename_i cause asked
        refine ⟨rfl, fun failure failed => .inr ⟨value, ?_⟩⟩
        rw [← Except.error.inj failed]
        exact asked

end FactoryProxy.Sequencing
