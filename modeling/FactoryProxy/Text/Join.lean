/-!
Contract: texts joined by a separator text.
-/

namespace FactoryProxy.Text

/-- The texts in order with the separator between neighbours. -/
def joinWith (separator : String) : List String → String
  | [] => ""
  | [text] => text
  | text :: rest => text ++ separator ++ joinWith separator rest

/-- The texts in order with nothing between them. -/
def concat (texts : List String) : String :=
  joinWith "" texts

theorem concat_cons (text : String) (rest : List String) :
    concat (text :: rest) = text ++ concat rest := by
  cases rest with
  | nil => simp [concat, joinWith]
  | cons next others => simp [concat, joinWith]

theorem concat_append (texts further : List String) :
    concat (texts ++ further) = concat texts ++ concat further := by
  induction texts with
  | nil => simp [concat, joinWith]
  | cons text rest inductionHypothesis =>
      rw [List.cons_append, concat_cons, concat_cons, inductionHypothesis, String.append_assoc]

end FactoryProxy.Text
