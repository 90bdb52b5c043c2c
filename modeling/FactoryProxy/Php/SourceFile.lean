import FactoryProxy.Php.Grammar.Statement
import FactoryProxy.Php.Lexer

/-!
Contract: a source file as the statements that matter for its classes.

Brackets are read from the inside out: when a bracket closes, all nodes inside
are complete, and every rule that may apply to its inside is applied at once. So
no rule has to look into a bracket again.

A text with syntax errors is read as far as the rules go. Four errors have a
settled reading: a bracket that is never closed ends with the file, a closing
bracket that fits no open one is passed over, a class without a name declares
nothing, and words behind the name of a class that start no clause are passed
over. The file is noted as erroneous then, and also if no rule takes a statement,
a member or a list of parameters. What stands between the expressions in other
brackets, or between the names of a group of imports, is not looked at.

Owns: `SourceFile`, the grouping of tokens, the reading of a file and the errors
noted there.
Does not own: scopes and full names, and which declarations are to be found in a
text with any other syntax error.
-/

namespace FactoryProxy.Php

/-! ## The inside of brackets -/

namespace Content

def ofRound (inner : List Node) : Content :=
  let items := Grammar.itemsOf inner
  match Reader.whole? Grammar.parameters inner with
  | some (parameters, signature) =>
    { items := items, signature := signature, parameters := parameters }
  | none => { items := items, signature := { items with regular := false } }

def ofCurly (inner : List Node) : Content :=
  let (statements, block) := Grammar.statementsOf inner
  let (constructor, body) := Grammar.bodyOf inner
  { items := Grammar.itemsOf inner
    isExpression := Grammar.isExpression inner
    statements := statements
    block := block
    constructor := constructor
    body := body }

def ofInner (bracket : Bracket) (inner : List Node) : Content :=
  match bracket with
  | .round => ofRound inner
  | .square => { items := Grammar.itemsOf inner }
  | .attribute => { items := Grammar.attributesOf inner }
  | .curly => ofCurly inner
  | .quoted =>
    { items := ⟨inner.map Node.plain, inner.all fun node => node.content.items.regular⟩ }

end Content

/-! ## Grouping -/

/-- A group whose closing bracket has not been met, with the nodes before it, the
last one first. -/
structure OpenGroup where
  line : Nat
  bracket : Bracket
  opening : Token
  before : List Node

namespace OpenGroup

/-- The nodes through the group, the last one first, when it ends. `done` are the
nodes inside, the last one first. -/
def ended (level : OpenGroup) (done : List Node) (closing : Option Token) : List Node :=
  let inner := done.reverse
  .group level.line level.opening inner closing (.ofInner level.bracket inner) :: level.before

end OpenGroup

/-- The nodes of a file, and whether every bracket is one of a pair. -/
structure Grouped where
  nodes : List Node
  balanced : Bool

namespace Grouped

def lineBreaks (text : String) : Nat :=
  text.toList.count '\n'

/-- Groups tokens from a line on, given the open groups, innermost first, and the
nodes read at the innermost level, the last one first. A closing bracket that
fits no open group stays a leaf. -/
def gather (pending : List OpenGroup) (done : List Node) (balanced : Bool) (line : Nat) :
    List Token → Grouped
  | [] =>
    ⟨(pending.foldl (fun inside level => level.ended inside none) done).reverse,
      balanced && pending.isEmpty⟩
  | token :: rest =>
    let below := line + lineBreaks token.text
    match token.kind with
    | .opening bracket => gather (⟨line, bracket, token, done⟩ :: pending) [] balanced below rest
    | .closing bracket =>
      match pending with
      | level :: outer =>
        if bracket.closes level.bracket then
          gather outer (level.ended done (some token)) balanced below rest
        else gather pending (.leaf line token :: done) false below rest
      | [] => gather [] (.leaf line token :: done) false below rest
    | _ => gather pending (.leaf line token :: done) balanced below rest

/-- The nodes of a token list whose first token stands on line one. -/
def ofTokens (tokens : List Token) : Grouped :=
  gather [] [] true 1 tokens

end Grouped

/-! ## The file -/

/-- A file: its statements, and whether it is free of the errors that the reader
notes. -/
structure SourceFile where
  statements : List Statement
  /-- Every bracket is one of a pair, every class has a name, and no statement, member
  or list of parameters was passed over, at any depth. -/
  wellFormed : Bool
deriving Repr

namespace SourceFile

/-- Reads the text of a file. -/
def ofText (text : String) : SourceFile :=
  let grouped := Grouped.ofTokens (scan text)
  let (statements, block) := Grammar.statementsOf grouped.nodes
  ⟨statements, grouped.balanced && block.regular⟩

end SourceFile

end FactoryProxy.Php
