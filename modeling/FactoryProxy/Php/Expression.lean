import FactoryProxy.Php.Token
import FactoryProxy.Text.Join

/-!
Contract: code as far as the names in it are concerned.

An expression is kept with its exact text. What is told apart are names, the
access to a class constant and the creation of an object, because there a name
denotes a class; everything else is a sequence of parts.

Owns: `Expression` and its text.
Does not own: the rules by which code is read, and which names are replaced in
another namespace.
-/

namespace FactoryProxy.Php

inductive Expression where
  /-- A token that is no name, or a name of a member. -/
  | leaf (token : Token)
  /-- A name, separators and everything between its segments included. -/
  | name (text : String)
  /-- The access to a constant. `access` is all text behind the owner, from the
  double colon through the constant or the braces that compute its name. -/
  | constantAccess (owner : Expression) (access : String)
  /-- The creation of an object of a named class. `intro` holds the keyword and
  the trivia up to the class name, `arguments` everything behind it. -/
  | instantiation (intro : List Token) (className : String) (arguments : List Expression)
  | compound (parts : List Expression)
deriving Repr

namespace Expression

def tokensText (tokens : List Token) : String :=
  Text.concat (tokens.map Token.text)

mutual

/-- The exact text of an expression. -/
def text : Expression → String
  | .leaf token => token.text
  | .name text => text
  | .constantAccess owner access => owner.text ++ access
  | .instantiation intro className arguments =>
    tokensText intro ++ className ++ textOf arguments
  | .compound parts => textOf parts

/-- The exact text of expressions in order. -/
def textOf : List Expression → String
  | [] => ""
  | part :: rest => part.text ++ textOf rest

end

/-- The name that the whole expression is. -/
def name? : Expression → Option String
  | .name text => some text
  | _ => none

/-- Parts in order as one expression; a single part stands for itself. -/
def ofParts : List Expression → Expression
  | [part] => part
  | parts => .compound parts

end Expression

end FactoryProxy.Php
