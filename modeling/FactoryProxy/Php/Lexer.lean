import FactoryProxy.Php.Template

/-!
Contract: source text cut into tokens.

`scan` reads a whole file. The cut is by the longest token at each place. Quoted
texts, comments and text outside the code tags are told apart here, so that no
later reader meets a keyword inside one of them. A text with embedded
expressions is cut into its marks, its pieces and the tokens of the expressions,
each expression between an opening and a closing brace.

Owns: the token at the head of a text in each mode, and the loop over the file.
Does not own: any grouping of tokens.
-/

namespace FactoryProxy.Php

/-- What an open brace in code belongs to. -/
inductive Brace where
  | block
  | embedded (delimiter : Delimiter)
deriving DecidableEq, Repr

inductive Mode where
  /-- Before the first code tag. -/
  | outside
  | code
  /-- In a text with embedded expressions. The flag tells that its opening has
  just been read. -/
  | template (delimiter : Delimiter) (atStart : Bool)
deriving DecidableEq, Repr

/-- The mode at a place of the file and the braces open there, innermost first. -/
structure LexerState where
  mode : Mode
  braces : List Brace
deriving DecidableEq, Repr

/-- The token at the head of a text, the rest and the state there. -/
structure Lexeme where
  token : Token
  state : LexerState
  rest : List Char
deriving DecidableEq, Repr

namespace Lexeme

def ofSpan (kind : TokenKind) (state : LexerState) (span : Span) : Lexeme :=
  ⟨⟨kind, String.ofList span.1⟩, state, span.2⟩

end Lexeme

/-! ## Code -/

/-- Symbols of several characters; a longer one stands before its beginnings. -/
def longSymbols : List (List Char) :=
  ["<<=", ">>=", "**=", "...", "<=>", "===", "!==", "??=", "?->", "::", "->", "=>", "++", "--",
    "**", "??", "<<", ">>", "<=", ">=", "==", "!=", "<>", "+=", "-=", "*=", "/=", ".=", "%=",
    "&=", "|=", "^=", "&&", "||"].map String.toList

def spanSymbol (text : List Char) : Span :=
  match longSymbols.find? (startsWith · text) with
  | some symbol => Span.ofLength symbol.length text
  | none => Span.ofLength 1 text

def opening? (c : Char) : Option Bracket :=
  if c == '(' then some .round
  else if c == '[' then some .square
  else if c == '\x7b' then some .curly
  else none

def closing? (c : Char) : Option Bracket :=
  if c == ')' then some .round
  else if c == ']' then some .square
  else if c == '\x7d' then some .curly
  else none

def LexerState.opened (state : LexerState) (bracket : Bracket) : LexerState :=
  if bracket = .curly then { state with braces := .block :: state.braces } else state

/-- The state behind a closing bracket. The brace that closes an embedded
expression leads back into the text around it. -/
def LexerState.closed (state : LexerState) (bracket : Bracket) : LexerState :=
  if bracket = .curly then
    match state.braces with
    | [] => state
    | .block :: outer => { state with braces := outer }
    | .embedded delimiter :: outer => ⟨.template delimiter false, outer⟩
  else state

/-- The opening mark of a quoted text at the head of a text, with the letter that
may stand before it. -/
def quotation? (first : Char) (rest : List Char) : Option (Char × Span) :=
  let isMark (c : Char) : Bool := c == '\'' || c == '"' || c == '\x60'
  match rest with
  | mark :: behind =>
    if isMark first then some (first, [first], rest)
    else if (first == 'b' || first == 'B') && (mark == '\'' || mark == '"') then
      some (mark, [first, mark], behind)
    else none
  | [] => if isMark first then some (first, [first], []) else none

/-- A quoted text, or the opening of one that may embed expressions. -/
def quotedLexeme (state : LexerState) (mark : Char) (opened : Span) : Lexeme :=
  if mark = '\'' then .ofSpan .literal state (opened.followedBy spanQuoted)
  else .ofSpan (.opening .quoted) { state with mode := .template (.mark mark) true } opened

def symbolLexeme (state : LexerState) (first : Char) (rest : List Char) : Lexeme :=
  match opening? first, closing? first with
  | some bracket, _ => .ofSpan (.opening bracket) (state.opened bracket) ([first], rest)
  | none, some bracket => .ofSpan (.closing bracket) (state.closed bracket) ([first], rest)
  | none, none => .ofSpan .symbol state (spanSymbol (first :: rest))

/-- The token at the head of a text in code. -/
def codeLexeme (state : LexerState) (first : Char) (rest : List Char) : Lexeme :=
  match quotation? first rest with
  | some (mark, opened) => quotedLexeme state mark opened
  | none =>
    if isSpace first then .ofSpan .blank state (Span.cons first (rest.span isSpace))
    else if isWordStart first then
      .ofSpan .word state (Span.cons first (rest.span isWordPart))
    else if first.isDigit then .ofSpan .literal state (spanNumber (first :: rest))
    else
      match first, rest with
      | '#', '[' :: inner => .ofSpan (.opening .attribute) state (['#', '['], inner)
      | '#', _ => .ofSpan .comment state (spanLineComment (first :: rest))
      | '/', '/' :: _ => .ofSpan .comment state (spanLineComment (first :: rest))
      | '/', '*' :: inner =>
        .ofSpan .comment state (((spanBlockComment inner).cons '*').cons first)
      | '?', '>' :: behind => .ofSpan .outside state (((spanOutside behind).cons '>').cons first)
      | '<', '<' :: '<' :: behind =>
        match labelOpening? behind with
        | some (delimiter, opened) =>
          .ofSpan (.opening .quoted) { state with mode := .template delimiter true }
            ('<' :: '<' :: '<' :: opened.1, opened.2)
        | none => symbolLexeme state first rest
      | _, _ => symbolLexeme state first rest

/-! ## Texts with embedded expressions -/

/-- The token at the head of a text with embedded expressions: its end, the opening
of an expression or a piece of plain text. -/
def templateLexeme (state : LexerState) (delimiter : Delimiter) (atStart : Bool)
    (text : List Char) : Lexeme :=
  match delimiter.close? atStart text with
  | some closing => .ofSpan (.closing .quoted) { state with mode := .code } closing
  | none =>
    if delimiter.opensExpression text then
      .ofSpan (.opening .curly) ⟨.code, .embedded delimiter :: state.braces⟩
        (Span.ofLength (if text.head? == some '$' then 2 else 1) text)
    else
      .ofSpan .literal { state with mode := .template delimiter false }
        (delimiter.spanPiece text)

/-! ## The file -/

/-- The token at the head of a text that is not empty. -/
def lexeme (state : LexerState) (first : Char) (rest : List Char) : Lexeme :=
  match state.mode with
  | .outside => .ofSpan .outside { state with mode := .code } (spanLeading (first :: rest))
  | .code => codeLexeme state first rest
  | .template delimiter atStart => templateLexeme state delimiter atStart (first :: rest)

/-- Reads on to the end of the text. `done` holds the tokens read, the last one
first, and `steps` bounds their number: every token takes a character. -/
def scanFrom (state : LexerState) (done : List Token) :
    (steps : List Char) → (text : List Char) → List Token
  | _, [] => done.reverse
  | [], _ => done.reverse
  | _ :: steps, first :: rest =>
    let next := lexeme state first rest
    scanFrom next.state (next.token :: done) steps next.rest

def scan (source : String) : List Token :=
  scanFrom ⟨.outside, []⟩ [] source.toList source.toList

end FactoryProxy.Php
