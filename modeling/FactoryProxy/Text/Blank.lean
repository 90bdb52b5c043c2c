/-!
Contract: white space and the trimming of texts.

Owns: the Unicode property White_Space and the three trimmings by a predicate.
Does not own: which characters a given reader skips; a reader with a narrower
set states its own.
-/

namespace FactoryProxy.Text

/-- The code points with the Unicode property White_Space. -/
def isBlank (c : Char) : Bool :=
  let code := c.toNat
  (9 ≤ code && code ≤ 13) || code == 0x20 || code == 0x85 || code == 0xA0
    || code == 0x1680 || (0x2000 ≤ code && code ≤ 0x200A) || code == 0x2028
    || code == 0x2029 || code == 0x202F || code == 0x205F || code == 0x3000

/-- Drops the longest prefix of characters in the class. -/
def trimStart (inClass : Char → Bool) (text : String) : String :=
  String.ofList (text.toList.dropWhile inClass)

/-- The list without its longest suffix of elements in the class. -/
def dropTail {α : Type} (inClass : α → Bool) (elements : List α) : List α :=
  (elements.reverse.dropWhile inClass).reverse

/-- Drops the longest suffix of characters in the class. -/
def trimEnd (inClass : Char → Bool) (text : String) : String :=
  String.ofList (dropTail inClass text.toList)

/-- Drops the characters of the class at both ends. -/
def trim (inClass : Char → Bool) (text : String) : String :=
  String.ofList (dropTail inClass (text.toList.dropWhile inClass))

/-- Drops the white space at both ends. -/
def trimBlank (text : String) : String :=
  trim isBlank text

example : trimBlank "\u3000 a b\u00a0\n" = "a b" := by decide +kernel

end FactoryProxy.Text
