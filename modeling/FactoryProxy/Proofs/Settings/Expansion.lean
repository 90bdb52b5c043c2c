import FactoryProxy.Settings.Expansion

/-!
Contract: the expansion of parameters in a text.

Owns: texts that refer to no parameter, which stay as they are whatever the parameters are.
-/

namespace FactoryProxy.Settings

/-- A text without percent signs has its characters as parts. -/
theorem partsOf_plain {characters : List Char} (plain : '%' ∉ characters) :
    partsOf characters = characters.map .character := by
  induction characters with
  | nil => rw [partsOf, List.map_nil]
  | cons c rest inductionHypothesis =>
      rw [List.mem_cons, not_or] at plain
      obtain ⟨plainHead, plainRest⟩ := plain
      rw [partsOf, if_neg (Ne.symm plainHead), inductionHypothesis plainRest, List.map_cons]

theorem expandParts_characters (available : Available) (opened : List String)
    (characters : List Char) :
    expandParts available opened (characters.map .character) = .ok (String.ofList characters) := by
  induction characters with
  | nil => rw [List.map_nil, expandParts]
  | cons c rest inductionHypothesis =>
      rw [List.map_cons, expandParts, inductionHypothesis]
      show Except.ok (String.singleton c ++ String.ofList rest) = _
      congr 1
      apply String.toList_inj.mp
      simp

/-- A text without percent signs is expanded to itself. -/
theorem expand_plain (parameters : Parameters) {text : String}
    (plain : '%' ∉ text.toList) : expand parameters text = .ok text := by
  unfold expand
  rw [partsOf_plain plain, expandParts_characters, String.ofList_toList]
  rfl

end FactoryProxy.Settings
