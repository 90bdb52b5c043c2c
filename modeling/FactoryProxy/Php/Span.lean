import FactoryProxy.Php.Token

/-!
Contract: the head of a text that belongs together, and the rest.

Each span is given by the width of one step: how many characters belong to it at
a place. A step of no characters ends the span, so a character that stands
behind a backslash, for instance, is never looked at by itself.

Owns: `Span`, the walk by steps and the steps of comments, numbers, quoted texts
and text outside the code.
-/

namespace FactoryProxy.Php

/-- The head of a text and the rest. -/
abbrev Span := List Char × List Char

namespace Span

def cons (c : Char) (span : Span) : Span := (c :: span.1, span.2)

/-- Walks over a text whose first `owed` characters belong to the span. `done`
holds the characters passed, the last one first. -/
def walk (width : List Char → Nat) (owed : Nat) (done : List Char) : List Char → Span
  | [] => (done.reverse, [])
  | c :: rest =>
    match owed with
    | more + 1 => walk width more (c :: done) rest
    | 0 =>
      match width (c :: rest) with
      | 0 => (done.reverse, c :: rest)
      | more + 1 => walk width more (c :: done) rest

/-- The span made of steps of the given width. -/
def bySteps (width : List Char → Nat) (text : List Char) : Span :=
  walk width 0 [] text

/-- The span that holds the first characters of a text. -/
def ofLength (length : Nat) (text : List Char) : Span :=
  text.splitAt length

/-- The spans of two neighbours as one. -/
def followedBy (first : Span) (next : List Char → Span) : Span :=
  let second := next first.2
  (first.1 ++ second.1, second.2)

end Span

/-- What follows a leading text, if it is there. -/
def after? : List Char → List Char → Option (List Char)
  | [], rest => some rest
  | _ :: _, [] => none
  | expected :: more, actual :: rest =>
    if expected = actual then after? more rest else none

/-- The text starts with the given one. -/
def startsWith (start text : List Char) : Bool :=
  (after? start text).isSome

/-! ## Comments -/

/-- One step in a comment that ends with its line. A question mark takes the next
character with it, unless both end the code or the line ends. -/
def lineStep : List Char → Nat
  | [] => 0
  | ['?'] => 0
  | '?' :: c :: _ => if c == '>' then 0 else if isLineBreak c then 1 else 2
  | c :: _ => if isLineBreak c then 0 else 1

/-- A comment that ends with its line, from its mark on. A hash before a question
mark is a comment by itself. -/
def spanLineComment (text : List Char) : Span :=
  match text with
  | '#' :: '?' :: rest => (['#'], '?' :: rest)
  | _ => Span.bySteps lineStep text

def blockStep : List Char → Nat
  | '*' :: '/' :: _ => 0
  | _ => 1

/-- The rest of a comment in marks, with its closing mark. -/
def spanBlockComment (text : List Char) : Span :=
  (Span.bySteps blockStep text).followedBy (Span.ofLength 2)

/-! ## Numbers -/

/-- Digits of a class, single underscores between them. -/
def spanDigits (inClass : Char → Bool) (text : List Char) : Span :=
  Span.bySteps
    (fun rest =>
      match rest with
      | '_' :: c :: _ => if inClass c then 2 else 0
      | c :: _ => if inClass c then 1 else 0
      | [] => 0) text

/-- The exponent of a number, empty if no digit follows its mark. -/
def spanExponent (text : List Char) : Span :=
  match text with
  | mark :: rest =>
    if mark == 'e' || mark == 'E' then
      let (sign, digits) := Span.ofLength (if startsWith ['+'] rest || startsWith ['-'] rest then 1 else 0) rest
      if digits.head?.any Char.isDigit then
        let tail := spanDigits Char.isDigit digits
        (mark :: sign ++ tail.1, tail.2)
      else ([], text)
    else ([], text)
  | [] => ([], [])

/-- The point of a number with the digits behind it. -/
def spanFraction (text : List Char) : Span :=
  match text with
  | '.' :: rest => (spanDigits Char.isDigit rest).cons '.'
  | _ => ([], text)

def isOctalDigit (c : Char) : Bool := '0' ≤ c && c ≤ '7'

def isHexDigit (c : Char) : Bool :=
  c.isDigit || ('a' ≤ c && c ≤ 'f') || ('A' ≤ c && c ≤ 'F')

/-- The digits that a letter behind a leading zero announces. -/
def radixDigits? (mark : Char) : Option (Char → Bool) :=
  if mark == 'x' || mark == 'X' then some isHexDigit
  else if mark == 'b' || mark == 'B' then some (fun c => c == '0' || c == '1')
  else if mark == 'o' || mark == 'O' then some isOctalDigit
  else none

def spanDecimal (text : List Char) : Span :=
  ((spanDigits Char.isDigit text).followedBy spanFraction).followedBy spanExponent

/-- A number that starts with a digit. -/
def spanNumber (text : List Char) : Span :=
  match text with
  | '0' :: mark :: digit :: _ =>
    match radixDigits? mark with
    | some inClass =>
      if inClass digit then
        (Span.ofLength 2 text).followedBy (spanDigits inClass)
      else spanDecimal text
    | none => spanDecimal text
  | _ => spanDecimal text

/-! ## Quoted texts without expressions -/

def quotedStep : List Char → Nat
  | '\'' :: _ => 0
  | '\\' :: _ => 2
  | _ => 1

/-- The rest of a quoted text with its closing mark. -/
def spanQuoted (text : List Char) : Span :=
  (Span.bySteps quotedStep text).followedBy (Span.ofLength 1)

/-! ## Text outside the code -/

/-- The letters that may follow `<?` in a code tag. -/
def tagLength : List Char → Nat
  | '=' :: _ => 1
  | p :: h :: q :: _ =>
    if p.toLower == 'p' && h.toLower == 'h' && q.toLower == 'p' then 3 else 0
  | _ => 0

/-- Nothing but ASCII white space and line comments is left in the file. The flag
tells that the place is in such a comment. -/
def endsQuietly (inComment : Bool) : List Char → Bool
  | [] => true
  | c :: rest =>
    if inComment then endsQuietly (c != '\n') rest
    else if isAsciiSpace c then endsQuietly false rest
    else c == '/' && rest.head? == some '/' && endsQuietly true rest

/-- Text up to the next code tag, with the tag. Where `yields` holds, the text
also ends behind a lone `<` if the file ends quietly there. -/
def outsideFrom (yields : Bool) (done : List Char) : List Char → Span
  | [] => (done.reverse, [])
  | '<' :: '?' :: rest =>
    (Span.ofLength (tagLength rest) rest) |> fun tag =>
      (done.reverse ++ '<' :: '?' :: tag.1, tag.2)
  | c :: rest =>
    if c == '<' && yields && endsQuietly false rest then ((c :: done).reverse, rest)
    else outsideFrom yields (c :: done) rest

/-- The text before the first code tag of a file. -/
def spanLeading (text : List Char) : Span :=
  outsideFrom false [] text

/-- The text behind a closing tag. Where the file ends quietly there is none. -/
def spanOutside (text : List Char) : Span :=
  if endsQuietly false text then ([], text) else outsideFrom true [] text

end FactoryProxy.Php
