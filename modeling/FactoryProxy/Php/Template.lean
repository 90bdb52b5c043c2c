import FactoryProxy.Php.Span

/-!
Contract: texts with embedded expressions.

Such a text runs between two marks, or from a label to the next place where the
label stands alone at the start of a line. It is cut into pieces of plain text
and openings of embedded expressions; a text whose label is quoted embeds none.

Owns: `Delimiter`, where a text with it ends, and its next part.
-/

namespace FactoryProxy.Php

/-- What a text stands between. -/
inductive Delimiter where
  | mark (character : Char)
  | label (name : List Char)
  /-- A label in single marks, whose text embeds no expressions. -/
  | bareLabel (name : List Char)
deriving DecidableEq, Repr

namespace Delimiter

/-! ## Ends -/

/-- The white space and the word at the head of a text, if the word is the label. -/
def labelAhead? (name text : List Char) : Option Span :=
  let (gap, rest) := text.span isAsciiSpace
  let (word, behind) := rest.span isLabelPart
  if word = name then some (gap ++ word, behind) else none

def endsArgument (c : Char) : Bool :=
  c == ';' || c == ',' || c == ')'

/-- The label at the head of a text, behind white space, as the end of a text that
embeds nothing: the line goes on with white space and the end of an argument or
a statement only. -/
def bareLabelAhead? (name text : List Char) : Option Span :=
  let (gap, rest) := text.span isAsciiSpace
  match after? name rest with
  | none => none
  | some behind =>
    let next := behind.dropWhile (fun c => isAsciiSpace c && !isLineBreak c)
    if behind.head?.any (fun c => isAsciiSpace c || endsArgument c)
        && next.head?.any (fun c => isLineBreak c || endsArgument c) then
      some (gap ++ name, behind)
    else none

/-- The closing mark or label at the head of a text. Right behind the opening, a
label needs no line break before it. -/
def close? (delimiter : Delimiter) (atStart : Bool) (text : List Char) : Option Span :=
  let broken := text.head?.any isLineBreak
  match delimiter with
  | .mark character =>
    match text with
    | c :: rest => if c = character then some ([c], rest) else none
    | [] => none
  | .label name => if atStart || broken then labelAhead? name text else none
  | .bareLabel name =>
    if atStart then labelAhead? name text
    else if broken then bareLabelAhead? name text
    else none

/-! ## Parts -/

def embeds : Delimiter → Bool
  | .bareLabel _ => false
  | _ => true

/-- The head of a text opens an embedded expression. -/
def opensExpression (delimiter : Delimiter) (text : List Char) : Bool :=
  delimiter.embeds && (startsWith ['{', '$'] text || startsWith ['$', '{'] text)

/-- The characters that a backslash takes with it. -/
def escapable : List Char :=
  ['n', 'r', 't', 'v', 'e', 'f', '\\', '$', '"', '\x60', 'x', 'u', '{',
    '0', '1', '2', '3', '4', '5', '6', '7']

/-- One step in a piece of plain text. -/
def pieceStep (delimiter : Delimiter) (text : List Char) : Nat :=
  if delimiter.opensExpression text || (delimiter.close? false text).isSome then 0
  else
    match text with
    | '\\' :: c :: _ => if delimiter.embeds && escapable.contains c then 2 else 1
    | _ => 1

/-- The plain text at the head of a text. -/
def spanPiece (delimiter : Delimiter) (text : List Char) : Span :=
  Span.bySteps delimiter.pieceStep text

end Delimiter

/-! ## Labelled texts -/

/-- White space and comments at the head of a text. -/
def spanGap (withBreaks : Bool) (text : List Char) : Span :=
  Span.bySteps
    (fun rest =>
      match rest with
      | '/' :: '*' :: inner => (spanBlockComment inner).1.length + 2
      | '/' :: '/' :: _ => (spanLineComment rest).1.length
      | '#' :: _ => (spanLineComment rest).1.length
      | c :: _ => if isSpace c && (withBreaks || !isLineBreak c) then 1 else 0
      | [] => 0) text

/-- The mark at the head of a text, if it is there. -/
def spanMark (character : Char) (text : List Char) : Span :=
  Span.ofLength (if startsWith [character] text then 1 else 0) text

/-- The opening of a labelled text behind `<<<`: its delimiter, its text and the
rest, which starts where the line may break. Either mark around a label that
embeds expressions may be left out. -/
def labelOpening? (text : List Char) : Option (Delimiter × Span) :=
  let gap := spanGap true text
  let single := startsWith ['\''] gap.2
  let quotation := if single then '\'' else '"'
  let opened := gap.followedBy (spanMark quotation)
  let (name, rest) := opened.2.span isLabelPart
  let closed : Span := (spanMark quotation rest).followedBy (spanGap false)
  let ahead := closed.2.head?.any (fun c => isLineBreak c || isLabelPart c)
  if name.isEmpty || !ahead || (single && !startsWith ['\''] rest) then none
  else
    some (if single then .bareLabel name else .label name,
      opened.1 ++ name ++ closed.1, closed.2)

end FactoryProxy.Php
