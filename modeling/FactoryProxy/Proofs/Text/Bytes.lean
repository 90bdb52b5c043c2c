import FactoryProxy.Proofs.Text.Folding

/-!
Contract: texts cut behind a number of bytes.

Lengths and places are counted in bytes of UTF-8, so a place may lie inside a character,
where no text can be cut.

Owns: the cut at a place, when there is one, and the length of a text in another ASCII case.
-/

namespace FactoryProxy.Text

/-- What stands before and behind the first bytes of a text, unless the text is shorter or
the place lies inside a character. -/
def cutAtByte? (count : Nat) (text : String) : Option (String × String) :=
  if inside : (⟨count⟩ : String.Pos.Raw).IsValid text then
    let place : text.Pos := ⟨⟨count⟩, inside⟩
    some ((text.sliceTo place).copy, (text.sliceFrom place).copy)
  else none

theorem cutAtByte?_eq_some_iff {count : Nat} {text head rest : String} :
    cutAtByte? count text = some (head, rest) ↔
      text = head ++ rest ∧ head.utf8ByteSize = count := by
  unfold cutAtByte?
  constructor
  · intro isCut
    split at isCut
    · rename_i inside
      have splits := String.Pos.splits (s := text) ⟨⟨count⟩, inside⟩
      obtain ⟨rfl, rfl⟩ := Prod.mk.inj (Option.some.inj isCut)
      exact ⟨splits.eq_append, congrArg String.Pos.Raw.byteIdx splits.offset_eq_rawEndPos.symm⟩
    · cases isCut
  · rintro ⟨rfl, rfl⟩
    have inside : (⟨head.utf8ByteSize⟩ : String.Pos.Raw).IsValid (head ++ rest) :=
      String.Pos.Raw.isValid_iff_exists_append.mpr ⟨head, rest, rfl, rfl⟩
    have splits : String.Pos.Splits (s := head ++ rest) ⟨_, inside⟩ head rest := ⟨rfl, rfl⟩
    rw [dif_pos inside]
    exact congrArg some (Prod.ext splits.copy_sliceTo_eq splits.copy_sliceFrom_eq)

/-! ## Texts in another case -/

theorem utf8Size_of_ascii {c : Char} (ascii : c.toNat ≤ 127) : c.utf8Size = 1 := by
  have isSmall : c.val ≤ 127 := UInt32.le_iff_toNat_le.mpr ascii
  simp [Char.utf8Size, isSmall]

theorem utf8Size_toLower (c : Char) : c.toLower.utf8Size = c.utf8Size := by
  rcases toLower_cases c with same | ⟨low, high, moved⟩
  · rw [same]
  · rw [utf8Size_of_ascii (c := c) (by omega), utf8Size_of_ascii (by omega)]

theorem utf8ByteSize_ofList_cons (c : Char) (rest : List Char) :
    (String.ofList (c :: rest)).utf8ByteSize =
      c.utf8Size + (String.ofList rest).utf8ByteSize := by
  rw [String.ofList_cons, String.utf8ByteSize_append, String.utf8ByteSize_singleton]

theorem utf8ByteSize_fold (text : String) : (fold text).utf8ByteSize = text.utf8ByteSize := by
  have ofList : ∀ characters : List Char,
      (String.ofList (characters.map Char.toLower)).utf8ByteSize =
        (String.ofList characters).utf8ByteSize := by
    intro characters
    induction characters with
    | nil => rfl
    | cons c rest inductionHypothesis =>
        rw [List.map_cons, utf8ByteSize_ofList_cons, utf8ByteSize_ofList_cons, utf8Size_toLower,
          inductionHypothesis]
  rw [fold, ofList, String.ofList_toList]

/-- Texts that differ in the case of ASCII letters alone are equally long. -/
theorem utf8ByteSize_eq_of_sameFolded {left right : String}
    (same : sameFolded left right = true) : left.utf8ByteSize = right.utf8ByteSize := by
  rw [← utf8ByteSize_fold left, ← utf8ByteSize_fold right, beq_iff_eq.mp same]

end FactoryProxy.Text
