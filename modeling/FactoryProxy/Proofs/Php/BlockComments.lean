import FactoryProxy.Php.Lexer
import Mathlib.Data.List.Basic

/-!
Contract: comments in marks, which end at the first mark that ends a comment.

Owns: the texts that hold such a mark, and how far a comment reaches in a text that was
written between two marks.
-/

namespace FactoryProxy.Php

variable {text : List Char}

/-! ## The mark -/

/-- The mark that ends a comment. -/
def commentEnd : List Char := ['*', '/']

/-- The mark that ends a comment stands somewhere in the text. -/
def HoldsEnd (text : List Char) : Prop :=
  commentEnd <:+: text

instance (text : List Char) : Decidable (HoldsEnd text) :=
  inferInstanceAs (Decidable (commentEnd <:+: text))

theorem HoldsEnd.slash_mem (holds : HoldsEnd text) : '/' ∈ text :=
  holds.subset (by decide)

theorem holdsEnd_cons {c : Char} :
    HoldsEnd (c :: text) ↔ c = '*' ∧ text.head? = some '/' ∨ HoldsEnd text := by
  unfold HoldsEnd
  rw [List.infix_cons_iff, commentEnd, List.cons_prefix_cons]
  cases text with
  | nil => simp
  | cons next rest => simp [eq_comm]

theorem not_holdsEnd_nil : ¬ HoldsEnd [] := by
  decide

/-- No mark reaches over a character that is in none. -/
theorem holdsEnd_append {separator : Char} (outside : separator ∉ commentEnd)
    (before after : List Char) :
    HoldsEnd (before ++ separator :: after) ↔ HoldsEnd before ∨ HoldsEnd after := by
  have noMark : separator ≠ '*' ∧ separator ≠ '/' := by
    simpa [commentEnd] using outside
  induction before with
  | nil => simp [holdsEnd_cons, noMark, not_holdsEnd_nil]
  | cons first rest inductionHypothesis =>
      have sameNext :
          (rest ++ separator :: after).head? = some '/' ↔ rest.head? = some '/' := by
        cases rest with
        | nil => simp [noMark]
        | cons next others => rfl
      rw [List.cons_append, holdsEnd_cons, holdsEnd_cons, sameNext, or_assoc]
      exact or_congr_right inductionHypothesis

/-- A text with a mark has a first one. -/
theorem HoldsEnd.exists_first (holds : HoldsEnd text) :
    ∃ before behind, text = before ++ commentEnd ++ behind ∧ ¬ HoldsEnd before := by
  induction text with
  | nil => exact absurd holds not_holdsEnd_nil
  | cons c rest inductionHypothesis =>
      by_cases here : c = '*' ∧ rest.head? = some '/'
      · obtain ⟨rfl, isSlash⟩ := here
        obtain ⟨behind, rfl⟩ := List.head?_eq_some_iff.mp isSlash
        exact ⟨[], behind, rfl, not_holdsEnd_nil⟩
      · obtain ⟨before, behind, rfl, isFirst⟩ :=
          inductionHypothesis ((holdsEnd_cons.mp holds).resolve_left here)
        refine ⟨c :: before, behind, rfl, ?_⟩
        rw [holdsEnd_cons]
        rintro (⟨rfl, isSlash⟩ | inRest)
        · obtain ⟨others, rfl⟩ := List.head?_eq_some_iff.mp isSlash
          exact here ⟨rfl, rfl⟩
        · exact isFirst inRest

/-! ## The comment -/

theorem walk_blockStep (rest : List Char) (isFree : ¬ HoldsEnd text) (done : List Char) :
    Span.walk blockStep 0 done (text ++ commentEnd ++ rest) =
      (done.reverse ++ text, commentEnd ++ rest) := by
  induction text generalizing done with
  | nil => simp [commentEnd, Span.walk, blockStep]
  | cons c others inductionHypothesis =>
      obtain ⟨notHere, freeBehind⟩ := not_or.mp (mt holdsEnd_cons.mpr isFree)
      have isStep : blockStep (c :: (others ++ commentEnd ++ rest)) = 1 := by
        unfold blockStep
        split
        · rename_i isMark
          obtain ⟨isStar, isSlash⟩ := List.cons.inj isMark
          refine absurd ⟨isStar, ?_⟩ notHere
          cases others with
          | nil => cases isSlash
          | cons next more => rw [(List.cons.inj isSlash).1, List.head?_cons]
        · rfl
      rw [List.cons_append, List.cons_append, Span.walk, isStep]
      dsimp only
      rw [inductionHypothesis freeBehind, List.reverse_cons, List.append_assoc]
      rfl

theorem bySteps_blockStep (rest : List Char) (isFree : ¬ HoldsEnd text) :
    Span.bySteps blockStep (text ++ commentEnd ++ rest) = (text, commentEnd ++ rest) :=
  walk_blockStep rest isFree []

theorem spanBlockComment_append (rest : List Char) (isFree : ¬ HoldsEnd text) :
    spanBlockComment (text ++ commentEnd ++ rest) = (text ++ commentEnd, rest) := by
  rw [spanBlockComment, bySteps_blockStep rest isFree]
  simp [Span.followedBy, Span.ofLength, commentEnd]

/-- What a comment holds that was opened before the text. -/
def commentedPart (text : List Char) : List Char :=
  (Span.bySteps blockStep text).1

/-- A text between two marks is what the comment holds exactly if it holds no mark itself. -/
theorem commentedPart_eq_iff (text rest : List Char) :
    commentedPart (text ++ commentEnd ++ rest) = text ↔ ¬ HoldsEnd text := by
  constructor
  · intro isWhole holds
    obtain ⟨before, behind, rfl, isFirst⟩ := holds.exists_first
    have isPart := congrArg Prod.fst (bySteps_blockStep (behind ++ commentEnd ++ rest) isFirst)
    rw [← List.append_assoc, ← List.append_assoc] at isPart
    have shorter := congrArg List.length (isWhole.symm.trans isPart)
    simp [commentEnd] at shorter
  · intro isFree
    exact congrArg Prod.fst (bySteps_blockStep rest isFree)

/-- The token read at an opening mark ends at the mark behind the text exactly if the text
holds no mark itself. -/
theorem codeLexeme_comment_iff (state : LexerState) (text rest : List Char) :
    codeLexeme state '/' ('*' :: (text ++ commentEnd ++ rest)) =
        ⟨⟨.comment, String.ofList (['/', '*'] ++ text ++ commentEnd)⟩, state, rest⟩ ↔
      ¬ HoldsEnd text := by
  have isComment : codeLexeme state '/' ('*' :: (text ++ commentEnd ++ rest)) =
      .ofSpan .comment state
        (((spanBlockComment (text ++ commentEnd ++ rest)).cons '*').cons '/') := rfl
  rw [isComment]
  constructor
  · intro ends holds
    obtain ⟨before, behind, rfl, isFirst⟩ := holds.exists_first
    have isSpan := spanBlockComment_append (behind ++ commentEnd ++ rest) isFirst
    rw [← List.append_assoc, ← List.append_assoc] at isSpan
    rw [isSpan] at ends
    have longer := congrArg (fun lexeme => lexeme.rest.length) ends
    simp [Lexeme.ofSpan, Span.cons, commentEnd] at longer
    omega
  · intro isFree
    rw [spanBlockComment_append rest isFree]
    rfl

end FactoryProxy.Php
