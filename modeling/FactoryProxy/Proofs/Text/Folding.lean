import FactoryProxy.Text.Folding

/-!
Contract: what changes in a text when its ASCII capitals are put in lower case.

Owns: the two cases of a folded character, the folding of joined texts, and equality up to
case by characters.
-/

namespace FactoryProxy.Text

/-- A character keeps its code, or is a capital and moves by the distance of the cases. -/
theorem toLower_cases (c : Char) :
    c.toLower = c ∨ 65 ≤ c.toNat ∧ c.toNat ≤ 90 ∧ c.toLower.toNat = c.toNat + 32 := by
  unfold Char.toLower
  split
  · rename_i capital
    have low : 65 ≤ c.toNat := UInt32.le_iff_toNat_le.mp capital.1
    have high : c.toNat ≤ 90 := UInt32.le_iff_toNat_le.mp capital.2
    refine .inr ⟨low, high, ?_⟩
    show (c.val + ('a'.val - 'A'.val)).toNat = c.toNat + 32
    rw [UInt32.toNat_add]
    show (c.toNat + 32) % 2 ^ 32 = c.toNat + 32
    omega
  · exact .inl rfl

theorem fold_append (left right : String) : fold (left ++ right) = fold left ++ fold right := by
  apply String.toList_injective
  simp

theorem sameFolded_iff {left right : String} :
    sameFolded left right = true ↔
      left.toList.map Char.toLower = right.toList.map Char.toLower := by
  rw [sameFolded, beq_iff_eq, ← String.toList_inj, toList_fold, toList_fold]

end FactoryProxy.Text
