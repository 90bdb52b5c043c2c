/-!
Contract: the tokens of a source file.

A token keeps its exact text, white space and comments included, so the texts of
all tokens of a file joined together are the file again. A word is never longer
than one segment of a name: separators and dollar signs are tokens of their own.

Owns: `Token`, its kinds, the brackets and the character classes.
-/

namespace FactoryProxy.Php

/-- What is written in pairs. -/
inductive Bracket where
  | round
  | square
  /-- Opens a list of attributes; a square bracket closes it. -/
  | attribute
  | curly
  /-- The marks around a text with embedded expressions. -/
  | quoted
deriving DecidableEq, Repr

inductive TokenKind where
  /-- Text that is not code, with the tags around it. -/
  | outside
  | blank
  | comment
  /-- A keyword or one segment of a name. -/
  | word
  /-- A number, a quoted text, or a piece of a text with embedded expressions. -/
  | literal
  | symbol
  | opening (bracket : Bracket)
  | closing (bracket : Bracket)
deriving DecidableEq, Repr

structure Token where
  kind : TokenKind
  text : String
deriving DecidableEq, Repr

/-- The closing bracket fits the opening one. -/
def Bracket.closes (closing opening : Bracket) : Bool :=
  closing == opening || (closing == .square && opening == .attribute)

namespace Token

/-- Tokens that carry no meaning for what stands around them. -/
def isTrivia (token : Token) : Bool :=
  token.kind == .outside || token.kind == .blank || token.kind == .comment

end Token

/-! ## Characters -/

def isSpace (c : Char) : Bool :=
  c == ' ' || (9 ≤ c.toNat && c.toNat ≤ 13) || c.toNat == 0xA0 || c.toNat == 0x200B
    || c.toNat == 0x2060 || c.toNat == 0xFEFF

/-- White space within ASCII, which alone counts around the labels of texts and
before the end of the file. -/
def isAsciiSpace (c : Char) : Bool :=
  c == ' ' || (9 ≤ c.toNat && c.toNat ≤ 13)

def isLineBreak (c : Char) : Bool :=
  c == '\n' || c == '\r'

/-- The first character of a word: a letter, an underscore or any character
outside ASCII. -/
def isWordStart (c : Char) : Bool :=
  c.isAlpha || c == '_' || (0x80 ≤ c.toNat && !isSpace c)

def isWordPart (c : Char) : Bool :=
  isWordStart c || c.isDigit

/-- The characters of a label, which tells where a text ends. -/
def isLabelPart (c : Char) : Bool :=
  c.isAlphanum || c == '_' || 0x80 ≤ c.toNat

end FactoryProxy.Php
