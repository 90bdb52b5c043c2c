/-!
Contract: cutting lists of characters at a separator.

Owns: the cut at the first and after the last separator, the pieces between
separators, and their `String` forms.
-/

namespace FactoryProxy.Text

/-- What stands before and after the first element that satisfies the test. -/
def cutAtFirst {α : Type} (isSeparator : α → Bool) : List α → Option (List α × List α)
  | [] => none
  | head :: tail =>
    if isSeparator head then some ([], tail)
    else (cutAtFirst isSeparator tail).map (fun parts => (head :: parts.1, parts.2))

/-- The elements after the last separator, all of them if there is none. -/
def afterLast {α : Type} (isSeparator : α → Bool) (elements : List α) : List α :=
  (elements.reverse.takeWhile (fun element => !isSeparator element)).reverse

/-- The maximal separator-free pieces in order. There is one piece more than
there are separators, so pieces may be empty. -/
def pieces {α : Type} (isSeparator : α → Bool) : List α → List (List α)
  | [] => [[]]
  | head :: tail =>
    if isSeparator head then [] :: pieces isSeparator tail
    else
      match pieces isSeparator tail with
      | [] => [[head]]
      | first :: rest => (head :: first) :: rest

/-- The texts before and after the first occurrence of the character. -/
def splitOnce (separator : Char) (text : String) : Option (String × String) :=
  (cutAtFirst (· == separator) text.toList).map
    (fun parts => (String.ofList parts.1, String.ofList parts.2))

/-- The text after the last occurrence of the character. -/
def lastPiece (separator : Char) (text : String) : String :=
  String.ofList (afterLast (· == separator) text.toList)

/-- The texts between the characters that satisfy the test. -/
def splitBy (isSeparator : Char → Bool) (text : String) : List String :=
  (pieces isSeparator text.toList).map String.ofList

example : splitOnce '=' "a=b=c" = some ("a", "b=c") := by decide +kernel
example : lastPiece '\\' "A\\B\\" = "" := by decide +kernel
example : splitBy (· == '|') "a||b" = ["a", "", "b"] := by decide +kernel

end FactoryProxy.Text
