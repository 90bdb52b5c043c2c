import FactoryProxy.Digest.Sha256
import Mathlib.Algebra.Group.Nat.Defs
import Mathlib.Data.List.Basic

/-!
Contract: what two digests say about their messages when they are the same text.

Owns: the chain a digest is written from, collisions, and the fact that writing
a chain in digits loses nothing of it.

Does **not** own: how hard it is to find a collision. Nothing here depends on what
the compression does with a block.
-/

namespace FactoryProxy.Digest

/-! ## Digits -/

theorem length_hexDigits (count value : Nat) : (hexDigits count value).length = count := by
  induction count generalizing value with
  | zero => rfl
  | succ count inductionHypothesis =>
      rw [hexDigits, List.length_append, inductionHypothesis, List.length_singleton]

theorem digitChar_injOn :
    ∀ left < 16, ∀ right < 16, Nat.digitChar left = Nat.digitChar right → left = right := by
  decide

theorem hexDigits_inj {count left right : Nat} (leftFits : left < 16 ^ count)
    (rightFits : right < 16 ^ count) (same : hexDigits count left = hexDigits count right) :
    left = right := by
  induction count generalizing left right with
  | zero => omega
  | succ count inductionHypothesis =>
      rw [hexDigits, hexDigits] at same
      obtain ⟨sameUpper, sameLast⟩ := List.append_inj same
        ((length_hexDigits count _).trans (length_hexDigits count _).symm)
      rw [Nat.pow_succ] at leftFits rightFits
      have quotients : left / 16 = right / 16 := inductionHypothesis
        (Nat.div_lt_of_lt_mul (by omega)) (Nat.div_lt_of_lt_mul (by omega)) sameUpper
      have remainders : left % 16 = right % 16 :=
        digitChar_injOn _ (Nat.mod_lt _ (by decide)) _ (Nat.mod_lt _ (by decide))
          (List.head_eq_of_cons_eq sameLast)
      rw [← Nat.div_add_mod left 16, ← Nat.div_add_mod right 16, quotients, remainders]

/-- The eight digits of a word. -/
def wordDigits (word : UInt32) : List Char :=
  hexDigits 8 word.toNat

theorem wordDigits_injective : Function.Injective wordDigits := by
  intro left right same
  exact UInt32.toNat_inj.mp (hexDigits_inj left.toNat_lt right.toNat_lt same)

theorem length_flatMap_wordDigits (words : List UInt32) :
    (words.flatMap wordDigits).length = 8 * words.length := by
  induction words with
  | nil => rfl
  | cons word rest inductionHypothesis =>
      rw [List.flatMap_cons, List.length_append, inductionHypothesis, wordDigits,
        length_hexDigits, List.length_cons]
      omega

/-- Words side by side can be told apart because all of them have the same width. -/
theorem flatMap_wordDigits_inj {left right : List UInt32}
    (same : left.flatMap wordDigits = right.flatMap wordDigits) : left = right := by
  have sameLength : left.length = right.length := by
    have lengths := congrArg List.length same
    rw [length_flatMap_wordDigits, length_flatMap_wordDigits] at lengths
    omega
  induction left generalizing right with
  | nil => exact (List.length_eq_zero_iff.mp sameLength.symm).symm
  | cons word rest inductionHypothesis =>
      obtain ⟨otherWord, otherRest, rfl⟩ := List.exists_cons_of_length_eq_add_one sameLength.symm
      rw [List.flatMap_cons, List.flatMap_cons] at same
      obtain ⟨sameWord, sameRest⟩ := List.append_inj same
        ((length_hexDigits 8 _).trans (length_hexDigits 8 _).symm)
      rw [wordDigits_injective sameWord,
        inductionHypothesis sameRest (Nat.succ.inj sameLength)]

/-! ## Chains -/

/-- The chain behind the last block of a message. -/
def finalChain (message : ByteArray) : Chain :=
  compressAll message .initial 0 (blockCount message)

/-- Two messages with the same chain in the end. -/
def Collide (left right : ByteArray) : Prop :=
  left ≠ right ∧ finalChain left = finalChain right

theorem Chain.words_injective : Function.Injective Chain.words := by
  intro left right same
  cases left
  cases right
  simpa only [Chain.words, List.cons.injEq, and_true, Chain.mk.injEq] using same

theorem ofBytes_eq_iff (left right : ByteArray) :
    ofBytes left = ofBytes right ↔ finalChain left = finalChain right := by
  constructor
  · intro same
    exact Chain.words_injective (flatMap_wordDigits_inj (String.ofList_injective same))
  · intro same
    exact congrArg (fun chain : Chain => String.ofList (chain.words.flatMap wordDigits)) same

/-- Messages with the same digest are the same or collide. -/
theorem ofBytes_eq_iff_collide (left right : ByteArray) :
    ofBytes left = ofBytes right ↔ left = right ∨ Collide left right := by
  rw [ofBytes_eq_iff]
  constructor
  · intro same
    exact (em (left = right)).imp_right (fun different => ⟨different, same⟩)
  · rintro (rfl | ⟨-, same⟩)
    · rfl
    · exact same

end FactoryProxy.Digest
