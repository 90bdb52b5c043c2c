import FactoryProxy.Php.Reader

/-!
Contract: names, variables and type hints.

A name is one token after another: comments and line breaks may stand around its
separators, and they belong to its text. Which words are keywords depends on the
place, so every word is a name where a name is read.
-/

namespace FactoryProxy.Php.Grammar

open Reader

/-- A separator and the segment behind it. -/
def segment (gap : Gap) : Reader Unit := do
  symbol gap "\\"
  discard (word .wide)

/-- A name with its exact text. `gap` is what may stand before a separator. -/
def name (gap : Gap) : Reader String := do
  skip .wide
  let (_, parts) ← capture do
    discard (maybe (symbol .nothing "\\"))
    discard (word .wide)
    many (segment gap)
  push (.name (Expression.textOf parts))
  return Expression.textOf parts

/-- A variable, or one whose name is computed. -/
def variableName : Reader Unit := do
  symbol .wide "$"
  many (symbol .wide "$")
  discard (word .wide) <|> items .wide .curly

def typeAtom (gap : Gap) : Reader Unit :=
  discard (name gap) <|> items .wide .round

/-- A type hint with its exact text. An ampersand belongs to it only if a type
follows. -/
def typeHint (gap : Gap) : Reader String := do
  skip .wide
  textOf do
    discard (maybe (symbol .nothing "?"))
    typeAtom gap
    many (do symbolIn gap ["|", "&"]; typeAtom gap)

/-- The lists of attributes before a declaration. -/
def attributes : Reader Unit :=
  many (items .wide .attribute)

def attributeItem : Reader Unit := do
  discard (name .wide)
  discard (maybe (items .wide .round))

/-- The end of a statement: a semicolon, or text outside the code. -/
def terminator : Reader Unit :=
  node .quiet (fun candidate => candidate.isOutside || candidate.isSymbol ";")

end FactoryProxy.Php.Grammar
