import FactoryProxy.Php.Syntax
import FactoryProxy.Text.Folding

/-!
Contract: tokens grouped by their brackets.

A group holds the nodes between an opening bracket and its closing one, together
with what they say under each rule that may apply to the inside of such a
bracket. A group that is still open at the end of the file has no closing
bracket.

Owns: `Node`, `Content` and the questions that rules ask about one node.
Does not own: the rules, and the grouping.
-/

namespace FactoryProxy.Php

/-- The inside of a pair of brackets as one rule reads it. -/
structure Inside where
  parts : List Expression := []
  /-- Nothing has been passed over, neither here nor in brackets further inside. -/
  regular : Bool := true
deriving Repr

/-- The inside of a pair of brackets under every rule. A rule that does not apply
to the bracket leaves its fields empty. -/
structure Content where
  /-- Expressions and whatever stands between them. -/
  items : Inside := {}
  /-- The inside is one expression. -/
  isExpression : Bool := false
  /-- The inside as the block of statements. -/
  block : Inside := {}
  statements : List Statement := []
  /-- The inside as the body of a class. -/
  body : Inside := {}
  constructor : Option ConstructorSyntax := none
  /-- The inside as the parameters of a function. -/
  signature : Inside := {}
  parameters : List ParameterSyntax := []
deriving Repr

/-- A token or a bracketed group with the line on which it starts. -/
inductive Node where
  | leaf (line : Nat) (token : Token)
  | group (line : Nat) (opening : Token) (inner : List Node) (closing : Option Token)
      (content : Content)
deriving Repr

namespace Node

def line : Node → Nat
  | .leaf line _ => line
  | .group line _ _ _ _ => line

/-- White space, comments and text outside the code. -/
def isTrivia : Node → Bool
  | .leaf _ token => token.isTrivia
  | .group _ _ _ _ _ => false

def isKind (kind : TokenKind) : Node → Bool
  | .leaf _ token => token.kind == kind
  | .group _ _ _ _ _ => false

/-- Text outside the code, which ends a statement. -/
def isOutside (node : Node) : Bool := node.isKind .outside

def isSymbol (text : String) : Node → Bool
  | .leaf _ token => token.kind == .symbol && token.text == text
  | .group _ _ _ _ _ => false

def isGroup (bracket : Bracket) : Node → Bool
  | .leaf _ _ => false
  | .group _ opening _ _ _ => opening.kind == .opening bracket

def symbol? : Node → Option String
  | .leaf _ token => if token.kind == .symbol then some token.text else none
  | .group _ _ _ _ _ => none

def literal? : Node → Option String
  | .leaf _ token => if token.kind == .literal then some token.text else none
  | .group _ _ _ _ _ => none

def word? : Node → Option String
  | .leaf _ token => if token.kind == .word then some token.text else none
  | .group _ _ _ _ _ => none

/-- The folded text of a word, by which keywords are known. -/
def keyword? (node : Node) : Option String :=
  node.word?.map Text.fold

def isWord (node : Node) : Bool :=
  node.word?.isSome

def isKeyword (text : String) (node : Node) : Bool :=
  node.keyword? == some text

def isKeywordIn (texts : List String) (node : Node) : Bool :=
  node.keyword?.any texts.contains

def tokens : Node → List Token
  | .leaf _ token => [token]
  | .group _ _ _ _ _ => []

def content : Node → Content
  | .leaf _ _ => {}
  | .group _ _ _ _ content => content

def inner : Node → List Node
  | .leaf _ _ => []
  | .group _ _ inner _ _ => inner

/-- The only word in the brackets of a group, in lower case. -/
def enclosedWord? (node : Node) : Option String :=
  match node.inner.filter (fun inside => !inside.isTrivia) with
  | [only] => only.keyword?
  | _ => none

/-- A token, or a group with the given reading of its inside. -/
def withInside (inside : List Expression) : Node → Expression
  | .leaf _ token => .leaf token
  | .group _ opening _ closing _ =>
    .compound (.leaf opening :: inside ++ (closing.map Expression.leaf).toList)

/-- A token, or a group with expressions inside. -/
def plain (node : Node) : Expression :=
  node.withInside node.content.items.parts

end Node

end FactoryProxy.Php
