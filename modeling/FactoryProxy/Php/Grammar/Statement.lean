import FactoryProxy.Php.Grammar.Declaration

/-!
Contract: statements.

Only declarations that stand directly in a list of statements are kept. The
statements that belong to a control structure are read as well, because only
so the end of the structure is found, but what they declare is passed over.

Owns: control structures, simple statements and lists of statements.
-/

namespace FactoryProxy.Php.Grammar

open Reader

/-! ## Simple statements -/

def expressions : Reader Unit :=
  discard (listed .quiet (expression .quiet))

def expressionStatement : Reader Unit := do
  expressions
  terminator

def block : Reader Unit :=
  discard (group .wide .curly Content.block)

/-- A keyword behind which expressions may stand. -/
def jump : Reader Unit := do
  keywordIn .wide ["return", "break", "continue", "exit"]
  terminator <|> expressionStatement

def command : Reader Unit := do
  keywordIn .wide ["echo", "global", "static", "goto"]
  expressionStatement

def functionDefinition : Reader Unit := do
  attributes
  discard functionHead
  discard (maybe (resultType .wide))
  block

def constantDeclaration : Reader Unit := do
  attributes
  constants

def label : Reader Unit := do
  discard (word .wide)
  symbol .wide ":"

/-- The head of a case, which statements follow. -/
def caseHead : Reader Unit := do
  (do keyword .wide "case"; expression .wide) <|> keyword .wide "default"
  symbolIn .wide [":", ";"]

def simpleStatement : Reader Unit :=
  symbol .wide ";" <|> block <|> jump <|> command <|> functionDefinition
    <|> constantDeclaration <|> caseHead <|> expressionStatement <|> label

/-! ## Control structures -/

/-- The parenthesised head of a control structure. -/
def head (introducing : String) : Reader Unit := do
  keyword .wide introducing
  items .wide .round

/-- Statements behind a colon, up to one of the keywords. -/
def colonBody (statement : Reader Unit) (ends : List String) : Reader Unit := do
  symbol .wide ":"
  many do
    if ← sees .wide (Node.isKeywordIn ends) then failure
    statement

/-- Statements behind a colon, and the keyword that ends them. -/
def closedBody (statement : Reader Unit) (ending : String) : Reader Unit := do
  colonBody statement [ending]
  keyword .wide ending
  terminator

/-- A statement that is no body behind a colon. -/
def ownBody (statement : Reader Unit) : Reader Unit := do
  if ← sees .wide (Node.isSymbol ":") then failure
  statement

/-- A condition whose branches are single statements. -/
def branches (statement : Reader Unit) : Reader Unit := do
  ownBody statement
  many (do head "elseif"; ownBody statement)
  discard (maybe (do keyword .wide "else"; ownBody statement))

/-- A condition whose branches stand behind colons. -/
def colonBranches (statement : Reader Unit) : Reader Unit := do
  let body := colonBody statement ["elseif", "else", "endif"]
  body
  many (do head "elseif"; body)
  discard (maybe (do keyword .wide "else"; body))
  keyword .wide "endif"
  terminator

def conditional (statement : Reader Unit) : Reader Unit := do
  head "if"
  colonBranches statement <|> branches statement

/-- A structure whose body is a statement or ends with a keyword. -/
def whileLoop (statement : Reader Unit) : Reader Unit := do
  head "while"
  closedBody statement "endwhile" <|> statement

/-- A structure that may also have no body at all. -/
def headedBy (introducing ending : String) (statement : Reader Unit) : Reader Unit := do
  head introducing
  terminator <|> closedBody statement ending <|> statement

def doLoop (statement : Reader Unit) : Reader Unit := do
  keyword .wide "do"
  statement
  head "while"
  terminator

def switch (statement : Reader Unit) : Reader Unit := do
  head "switch"
  block <|> closedBody statement "endswitch"

def tryStatement : Reader Unit := do
  keyword .wide "try"
  block
  many (do head "catch" <|> keyword .wide "finally"; block)

def controlStructure (statement : Reader Unit) : Reader Unit :=
  conditional statement <|> whileLoop statement <|> headedBy "for" "endfor" statement
    <|> headedBy "foreach" "endforeach" statement
    <|> headedBy "declare" "enddeclare" statement
    <|> doLoop statement <|> switch statement <|> tryStatement

/-! ## Lists of statements -/

/-- A statement, as far as it is kept. Each structure around a statement takes a
node before it, so a list of nodes bounds their number. -/
def statement : (bound : List Node) → Reader (Option Statement)
  | [] => failure
  | _ :: bound =>
    (return some (← keptStatement))
      <|> (do controlStructure (discard (statement bound)) <|> simpleStatement; return none)

/-- The statements that are kept of a list, and the list as a block. -/
def statementsOf (nodes : List Node) : List Statement × Inside :=
  let (found, block) := throughout (statement nodes) passOver nodes
  (found.filterMap id, block)

end FactoryProxy.Php.Grammar
