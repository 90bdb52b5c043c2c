/-!
Contract: comparison of texts up to ASCII letter case.

Owns: `fold`, the text with its ASCII capitals in lower case, and equality of
folded texts. Letters outside ASCII keep their case, so `Ä` and `ä` differ.
-/

namespace FactoryProxy.Text

def fold (text : String) : String :=
  String.ofList (text.toList.map Char.toLower)

/-- The two texts differ at most in the case of ASCII letters. -/
def sameFolded (left right : String) : Bool :=
  fold left == fold right

@[simp] theorem toList_fold (text : String) :
    (fold text).toList = text.toList.map Char.toLower := by
  simp [fold]

example : fold "App\\ÄB" = "app\\Äb" := by decide +kernel

end FactoryProxy.Text
