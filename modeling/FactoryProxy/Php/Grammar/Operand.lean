import FactoryProxy.Php.Grammar.Name

/-!
Contract: operands, the things that operators join.

Owns: names, variables, literals, bracketed expressions, functions without a name,
the creation of objects, and the accesses that extend an operand to the right.
Does not own: operators and what may stand before an operand.
-/

namespace FactoryProxy.Php.Grammar

open Reader

/-! ## Accesses -/

/-- The name of a member behind an arrow. -/
def memberName : Reader Unit :=
  discard (word .wide) <|> variableName <|> items .wide .curly

/-- A word or braces behind a double colon. -/
def constantName : Reader Unit :=
  discard (word .wide) <|> items .wide .curly

/-- A double colon and what follows. Tells whether it is the access to a constant,
which no arguments follow. -/
def scopeAccess (gap : Gap) : Reader Bool := do
  symbol gap "::"
  (do constantName; return !(← sees gap (Node.isGroup .round)))
    <|> (do variableName; return false)

def braceAccess (gap : Gap) : Reader Unit := do
  let taken ← next gap (fun candidate => candidate.isGroup .curly && candidate.content.isExpression)
  add taken Content.items

/-- What extends an operand. Tells whether it is the access to a constant. -/
def access (gap : Gap) : Reader Bool :=
  scopeAccess gap <|> do
    (do symbolIn gap ["->", "?->"]; memberName)
      <|> items gap .round <|> items gap .square <|> braceAccess gap
    return false

def accessed (gap : Gap) (operand : Expression) : Reader Expression := do
  let (isConstant, parts) ← capture (access gap)
  return if isConstant then .constantAccess operand (Expression.textOf parts)
    else .compound (operand :: parts)

/-! ## Functions without a name -/

/-- The keyword and the parameters of a function without a name. -/
def anonymousHead (keyword : String) : Reader Unit := do
  discard (maybe (Reader.keyword .wide "static"))
  Reader.keyword .wide keyword
  discard (maybe (symbol .wide "&"))
  discard (group .wide .round Content.signature)

def resultType (gap : Gap) : Reader Unit := do
  symbol gap ":"
  discard (typeHint gap)

/-- A function without a name and with a block. -/
def closure : Reader Unit := do
  anonymousHead "function"
  discard (maybe (do keyword .wide "use"; items .wide .round))
  discard (maybe (resultType .wide))
  discard (group .wide .curly Content.block)

/-- A function without a name up to its arrow. -/
def arrowHead : Reader Unit := do
  anonymousHead "fn"
  discard (maybe (resultType .wide))
  symbol .wide "=>"

/-! ## Creation of objects -/

def visibilities : List String := ["public", "protected", "private"]

/-- A visibility. The operation it is for may follow in parentheses. -/
def visibility : Reader Unit := do
  keywordIn .wide visibilities
  discard (maybe (node .wide (fun candidate =>
    candidate.isGroup .round && candidate.enclosedWord?.isSome)))

def otherModifiers : List String := ["static", "abstract", "final", "readonly", "var"]

/-- A modifier of a declaration, with its folded text. -/
def modifier : Reader String := do
  skip .wide
  return Text.fold (← textOf (visibility <|> keywordIn .wide otherModifiers))

/-- The names behind a keyword in the head of a class. -/
def heritage (introducing : String) : Reader (List String) := do
  keyword .wide introducing
  listed .wide (name .wide)

def heritageIfAny (introducing : String) : Reader (List String) :=
  heritage introducing <|> return []

def anonymousClass : Reader Unit := do
  keyword .wide "new"
  attributes
  discard (collect modifier)
  keyword .wide "class"
  discard (maybe (items .wide .round))
  discard (heritageIfAny "extends")
  discard (heritageIfAny "implements")
  discard (group .wide .curly Content.body)

/-- The creation of an object of a named class. Behind a double colon the name
belongs to a member, which holds the class. -/
def instantiation (gap : Gap) : Reader Unit := do
  skip .wide
  let introducing ← next .nothing (Node.isKeyword "new")
  let between := (← get).rest.takeWhile Node.isTrivia
  let (className, _) ← capture (name gap)
  if ← sees gap (Node.isSymbol "::") then failure
  let (_, arguments) ← capture (maybe (items gap .round))
  push (.instantiation ((introducing :: between).flatMap Node.tokens) className arguments)

/-! ## Operands -/

def matchExpression : Reader Unit := do
  keyword .wide "match"
  items .wide .round
  items .wide .curly

/-- An array or a list of targets in its long form. -/
def longArray : Reader Unit := do
  keywordIn .wide ["array", "list"]
  items .wide .round

/-- A number that starts with its point. -/
def pointNumber : Reader Unit := do
  symbol .wide "."
  node .nothing (Node.isKind .literal)

/-- A number that starts with its point, and a second point behind it, which joins
the number to the next operand. -/
def joinedPointNumber : Reader Unit := do
  symbol .wide "."
  node .nothing (fun candidate =>
    candidate.literal?.any (fun text => text.toList.getLast? == some '.'))

/-- Keywords that never name anything where an operand is read. -/
def reserved : List String :=
  ["new", "clone", "print", "throw", "yield", "include", "include_once", "require",
    "require_once", "fn", "function", "match", "array", "list"]

def plainName (gap : Gap) : Reader Unit := do
  if ← sees .wide (Node.isKeywordIn reserved) then failure
  discard (name gap)

def castTypes : List String :=
  ["array", "binary", "bool", "boolean", "double", "int", "integer", "float", "object", "real",
    "string", "unset"]

/-- A type in parentheses, which stands before the operand that it converts. -/
def isCast (node : Node) : Bool :=
  node.isGroup .round && node.enclosedWord?.any castTypes.contains

def parenthesised : Reader Unit := do
  let taken ← next .wide (fun candidate => candidate.isGroup .round && !isCast candidate)
  add taken Content.items

/-- An operand without the accesses behind it. -/
def operandHead (gap : Gap) : Reader Unit :=
  closure <|> plainName gap <|> variableName <|> node .wide (Node.isKind .literal)
    <|> parenthesised <|> items .wide .square <|> items .wide .quoted <|> pointNumber
    <|> anonymousClass <|> instantiation gap <|> matchExpression <|> longArray

/-- An operand with all accesses behind it, as one part. -/
def operand (gap : Gap) : Reader Unit := do
  skip .wide
  let (_, head) ← capture (operandHead gap)
  let whole ← repeatFrom (Expression.ofParts head) fun found =>
    (do return some (← accessed gap found)) <|> return none
  push whole

end FactoryProxy.Php.Grammar
