import FactoryProxy.Json.Printer
import FactoryProxy.Json.Reader

/-!
Contract: texts between quotes are read back as they were written.

Owns: the reading of every escaped character and of the codes of characters.
-/

namespace FactoryProxy.Json

/-! ## Escapes -/

/-- Four hexadecimal digits write the number of a control character. -/
theorem unit?_hexDigits {code : Nat} (isControl : code < 32) :
    ∃ a b c d, Digest.hexDigits 4 code = [a, b, c, d] ∧ unit? a b c d = some code := by
  have written : Digest.hexDigits 4 code =
      [Nat.digitChar (code / 16 / 16 / 16 % 16), Nat.digitChar (code / 16 / 16 % 16),
        Nat.digitChar (code / 16 % 16), Nat.digitChar (code % 16)] := rfl
  have readsBack : ∀ code < 32,
      unit? (Nat.digitChar (code / 16 / 16 / 16 % 16)) (Nat.digitChar (code / 16 / 16 % 16))
        (Nat.digitChar (code / 16 % 16)) (Nat.digitChar (code % 16)) = some code := by
    decide +kernel
  exact ⟨_, _, _, _, written, readsBack code isControl⟩

/-- A character that needs no escape is read as it stands. -/
theorem codes?_plain {c : Char} {rest behind : List Char} {codes : List Nat}
    (notQuote : c ≠ '"') (notBackslash : c ≠ '\\') (notControl : ¬ c.toNat < 32)
    (reads : codes? rest = some (codes, behind)) :
    codes? (c :: rest) = some (c.toNat :: codes, behind) := by
  have isVerbatim : (decide (c.toNat < 32) || c == '\\') = false := by
    simp [notControl, notBackslash]
  rw [codes?.eq_5]
  · rw [isVerbatim, reads]
    rfl
  all_goals
    intros
    simp_all

/-- An escaped character is read as the character. -/
theorem codes?_escaped (c : Char) {rest behind : List Char} {codes : List Nat}
    (reads : codes? rest = some (codes, behind)) :
    codes? (escaped c ++ rest) = some (c.toNat :: codes, behind) := by
  unfold escaped
  split
  case h_8 _ notQuote notBackslash _ _ _ _ _ =>
    by_cases isControl : c.toNat < 32
    · obtain ⟨a, b, d, e, written, isUnit⟩ := unit?_hexDigits isControl
      rw [if_pos isControl, written]
      simp [codes?, isUnit, reads]
    · rw [if_neg isControl]
      exact codes?_plain notQuote notBackslash isControl reads
  all_goals simp [codes?, shortEscape?, reads]

theorem codes?_flatMap_escaped (characters behind : List Char) :
    codes? (characters.flatMap escaped ++ '"' :: behind) =
      some (characters.map Char.toNat, behind) := by
  induction characters with
  | nil => simp [codes?]
  | cons head tail inductionHypothesis =>
      rw [List.flatMap_cons, List.append_assoc]
      exact codes?_escaped head inductionHypothesis

/-! ## Characters -/

/-- The code of a character is no half of a surrogate pair. -/
theorem not_surrogate (c : Char) : isLeading c.toNat = false ∧ isTrailing c.toNat = false := by
  have valid := c.valid
  simp only [isLeading, isTrailing, Bool.and_eq_false_iff, decide_eq_false_iff_not]
  have isCode : c.toNat = c.val.toNat := rfl
  simp only [UInt32.isValidChar, Nat.isValidChar] at valid
  omega

theorem charactersOf?_map_toNat (characters : List Char) :
    charactersOf? (characters.map Char.toNat) = some characters := by
  induction characters with
  | nil => rfl
  | cons head tail inductionHypothesis =>
      obtain ⟨notLeading, notTrailing⟩ := not_surrogate head
      cases tail with
      | nil => simp [charactersOf?, notLeading, notTrailing, Char.ofNat_toNat]
      | cons next rest =>
          rw [List.map_cons, List.map_cons, charactersOf?, notLeading, notTrailing]
          rw [List.map_cons] at inductionHypothesis
          simp [inductionHypothesis, Char.ofNat_toNat]

/-- A quoted text is read back behind its opening quote. -/
theorem text?_quoted (text : String) (behind : List Char) :
    text? (text.toList.flatMap escaped ++ '"' :: behind) = some (some text, behind) := by
  unfold text?
  rw [codes?_flatMap_escaped, Option.map_some, charactersOf?_map_toNat, Option.map_some,
    String.ofList_toList]

end FactoryProxy.Json
