import FactoryProxy.Php.Grammar.Operand

/-!
Contract: expressions as operands joined by operators.

Precedence has no say in what a name denotes, so an expression is read as a flat
sequence: what may stand before an operand, the operand, an operator, and so on.
The sequence ends before the first node that cannot go on with it.

Owns: `expression`, the operators and the reading of expressions in brackets.
-/

namespace FactoryProxy.Php.Grammar

open Reader

/-- What comes next in an expression. -/
inductive Place where
  | operand
  /-- An operand or the end. -/
  | operandOrEnd
  /-- An operator or the end. -/
  | operator
deriving DecidableEq, Repr

/-- A place in an expression. `choices` counts the question marks that wait for
their colon and `arrows` the keywords that may be followed by a key. -/
structure Phrase where
  place : Place
  choices : Nat
  arrows : Nat
deriving DecidableEq, Repr

/-! ## Before an operand -/

def unaryOperators : List String := ["!", "~", "+", "-", "++", "--", "@", "&", "..."]

def unaryKeywords : List String :=
  ["print", "include", "include_once", "require", "require_once", "clone", "throw"]

/-- What stands before an operand and belongs to it. -/
def introduction : Reader Unit :=
  symbolIn .wide unaryOperators <|> keywordIn .wide unaryKeywords
    <|> node .wide isCast <|> items .wide .attribute <|> arrowHead
    <|> (do keyword .wide "yield"; keyword .wide "from") <|> joinedPointNumber

/-- The step at a place where an operand may stand. A class behind `new` that has no
name is an operand like any other. -/
def operandStep (gap : Gap) (phrase : Phrase) : Reader (Option Phrase) := do
  let mayEnd := phrase.place == .operandOrEnd
  if mayEnd && (← sees gap Node.isOutside) then return none
  (do introduction; return some { phrase with place := .operand })
    <|> (do operand gap; return some { phrase with place := .operator })
    <|> (do keyword .wide "new"; return some { phrase with place := .operand })
    <|> (do keyword .wide "yield"
            return some ⟨.operandOrEnd, phrase.choices, phrase.arrows + 1⟩)
    <|> if mayEnd then return none else failure

/-! ## Behind an operand -/

def binaryOperators : List String :=
  [".", "+", "-", "*", "/", "%", "**", "|", "&", "^", "<<", ">>", "&&", "||", "??",
    "==", "!=", "===", "!==", "<>", "<", ">", "<=", ">=", "<=>",
    "=", "+=", "-=", "*=", "/=", ".=", "%=", "**=", "&=", "|=", "^=", "<<=", ">>=", "??="]

def binaryKeywords : List String := ["and", "or", "xor", "instanceof"]

def operatorStep (gap : Gap) (phrase : Phrase) : Reader (Option Phrase) :=
  (do symbolIn gap ["++", "--"]; return some phrase)
    <|> (do symbolIn gap binaryOperators; return some { phrase with place := .operand })
    <|> (do keywordIn gap binaryKeywords; return some { phrase with place := .operand })
    <|> (do symbol gap "?"; symbol .wide ":"; return some { phrase with place := .operand })
    <|> (do symbol gap "?"; return some ⟨.operand, phrase.choices + 1, phrase.arrows⟩)
    <|> (do if phrase.choices = 0 then failure
            symbol gap ":"
            return some ⟨.operand, phrase.choices - 1, phrase.arrows⟩)
    <|> (do if phrase.arrows = 0 then failure
            symbol gap "=>"
            return some ⟨.operand, phrase.choices, phrase.arrows - 1⟩)
    <|> return none

def phraseStep (gap : Gap) (phrase : Phrase) : Reader (Option Phrase) :=
  if phrase.place = .operator then operatorStep gap phrase else operandStep gap phrase

/-- An expression, as long as it goes on. `gap` is what may stand where it could
also end. -/
def expression (gap : Gap) : Reader Unit := do
  let phrase ← repeatFrom ⟨.operand, 0, 0⟩ (phraseStep gap)
  if phrase.place = .operand then failure

/-! ## Expressions in brackets -/

/-- An expression among others. A word right behind it is a keyword of the list. -/
def item : Reader Unit := do
  expression .wide
  discard (maybe (node .wide Node.isWord))

def itemsOf (nodes : List Node) : Inside :=
  (throughout item anyNode nodes).2

def attributesOf (nodes : List Node) : Inside :=
  (throughout attributeItem anyNode nodes).2

def isExpression (nodes : List Node) : Bool :=
  (whole? (expression .wide) nodes).isSome

end FactoryProxy.Php.Grammar
