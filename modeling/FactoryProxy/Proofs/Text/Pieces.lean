import FactoryProxy.Text.Split

/-!
Contract: the pieces of a list between its separators.

Owns: what the pieces are for a list without separators and for lists around one, what
stands in a piece, and the list that pieces were cut from.
-/

namespace FactoryProxy.Text

variable {α : Type} {isSeparator : α → Bool}

theorem pieces_ne_nil (isSeparator : α → Bool) (elements : List α) :
    pieces isSeparator elements ≠ [] := by
  cases elements with
  | nil => exact List.cons_ne_nil _ _
  | cons head tail =>
      unfold pieces
      split
      · exact List.cons_ne_nil _ _
      · split
        · exact List.cons_ne_nil _ _
        · exact List.cons_ne_nil _ _

theorem pieces_append {separator : α} (separates : isSeparator separator = true)
    (before after : List α) :
    pieces isSeparator (before ++ separator :: after) =
      pieces isSeparator before ++ pieces isSeparator after := by
  induction before with
  | nil => simp [pieces, separates]
  | cons head tail inductionHypothesis =>
      rw [List.cons_append, pieces, pieces, inductionHypothesis]
      by_cases isHead : isSeparator head = true
      · rw [if_pos isHead, if_pos isHead]
        rfl
      · rw [if_neg isHead, if_neg isHead]
        obtain ⟨first, rest, isPieces⟩ :=
          List.exists_cons_of_ne_nil (pieces_ne_nil isSeparator tail)
        rw [isPieces]
        rfl

theorem pieces_of_free {elements : List α}
    (free : ∀ element ∈ elements, isSeparator element = false) :
    pieces isSeparator elements = [elements] := by
  induction elements with
  | nil => rfl
  | cons head tail inductionHypothesis =>
      have headFree := free head List.mem_cons_self
      have tailPieces := inductionHypothesis (fun element member =>
        free element (List.mem_cons_of_mem head member))
      rw [pieces, headFree, tailPieces]
      rfl

theorem pieces_replicate {separator : α} (separates : isSeparator separator = true)
    (elements : List α) (count : Nat) :
    pieces isSeparator (elements ++ List.replicate count separator) =
      pieces isSeparator elements ++ List.replicate count [] := by
  induction count generalizing elements with
  | zero => simp
  | succ count inductionHypothesis =>
      have moved : elements ++ List.replicate (count + 1) separator =
          (elements ++ [separator]) ++ List.replicate count separator := by
        rw [List.append_assoc]
        rfl
      rw [moved, inductionHypothesis, pieces_append separates, List.append_assoc]
      rfl

theorem free_of_mem_pieces {elements piece : List α}
    (member : piece ∈ pieces isSeparator elements) :
    ∀ element ∈ piece, isSeparator element = false := by
  induction elements generalizing piece with
  | nil =>
      rw [List.mem_singleton.mp member]
      exact List.forall_mem_nil _
  | cons head tail inductionHypothesis =>
      obtain ⟨first, rest, isPieces⟩ :=
        List.exists_cons_of_ne_nil (pieces_ne_nil isSeparator tail)
      rw [pieces] at member
      rw [isPieces] at member inductionHypothesis
      split at member
      · rcases List.mem_cons.mp member with isEmpty | inTail
        · rw [isEmpty]
          exact List.forall_mem_nil _
        · exact inductionHypothesis inTail
      · rename_i isHead
        rcases List.mem_cons.mp member with isFirst | inRest
        · rw [isFirst]
          refine List.forall_mem_cons.mpr ⟨Bool.eq_false_iff.mpr isHead, ?_⟩
          exact inductionHypothesis List.mem_cons_self
        · exact inductionHypothesis (List.mem_cons_of_mem first inRest)

/-- What separates nothing stands in a piece. -/
theorem exists_piece_of_mem {element : α} {elements : List α} (member : element ∈ elements)
    (free : isSeparator element = false) :
    ∃ piece ∈ pieces isSeparator elements, element ∈ piece := by
  obtain ⟨before, after, rfl⟩ := List.append_of_mem member
  induction before with
  | nil =>
      obtain ⟨first, rest, isPieces⟩ :=
        List.exists_cons_of_ne_nil (pieces_ne_nil isSeparator after)
      refine ⟨element :: first, ?_, List.mem_cons_self⟩
      simp [pieces, free, isPieces]
  | cons head tail inductionHypothesis =>
      obtain ⟨piece, isPiece, inside⟩ :=
        inductionHypothesis (List.mem_append_right tail List.mem_cons_self)
      obtain ⟨first, rest, isPieces⟩ :=
        List.exists_cons_of_ne_nil (pieces_ne_nil isSeparator (tail ++ element :: after))
      rw [isPieces] at isPiece
      rw [List.cons_append, pieces, isPieces]
      split
      · exact ⟨piece, List.mem_cons_of_mem _ isPiece, inside⟩
      · rcases List.mem_cons.mp isPiece with rfl | inRest
        · exact ⟨head :: piece, List.mem_cons_self, List.mem_cons_of_mem _ inside⟩
        · exact ⟨piece, List.mem_cons_of_mem _ inRest, inside⟩

/-- Pieces cut at one element are the pieces of one list only. -/
theorem pieces_inj {separator : Char} {left right : List Char}
    (same : pieces (· == separator) left = pieces (· == separator) right) : left = right := by
  have joined : ∀ elements : List Char,
      [separator].intercalate (pieces (· == separator) elements) = elements := by
    intro elements
    induction elements with
    | nil => rfl
    | cons head tail inductionHypothesis =>
        obtain ⟨first, rest, isPieces⟩ :=
          List.exists_cons_of_ne_nil (pieces_ne_nil (· == separator) tail)
        rw [isPieces] at inductionHypothesis
        rw [pieces, isPieces]
        by_cases isHead : (head == separator) = true
        · rw [if_pos isHead, List.intercalate_cons_cons, inductionHypothesis,
            beq_iff_eq.mp isHead]
          rfl
        · rw [if_neg isHead]
          cases rest with
          | nil =>
              rw [List.intercalate_singleton] at inductionHypothesis ⊢
              rw [inductionHypothesis]
          | cons next others =>
              rw [List.intercalate_cons_cons] at inductionHypothesis ⊢
              rw [List.cons_append, List.cons_append, inductionHypothesis]
  rw [← joined left, same, joined right]

end FactoryProxy.Text
