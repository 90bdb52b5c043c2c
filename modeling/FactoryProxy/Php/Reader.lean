import FactoryProxy.Php.Node

/-!
Contract: reading a list of nodes from left to right.

A reader takes nodes from the head of what is left and adds their expressions to
the parts read so far, so the parts always have the text of the nodes taken. It
fails where its rule does not apply, and then nothing is taken. A reader that
takes nodes without a rule notes that they were passed over.

Owns: `Reader`, taking nodes, gaps between nodes, repetition and the separation
of what a reader has added.
Does not own: any rule of the language.
-/

namespace FactoryProxy.Php

/-- What is left to read and what has been read, the last part first. -/
structure Reading where
  rest : List Node
  parts : List Expression
  /-- Nothing has been passed over. -/
  regular : Bool

abbrev Reader := StateT Reading Option

/-- What may stand between two nodes that belong together. -/
inductive Gap where
  | nothing
  /-- White space and comments. Text outside the code ends what is read. -/
  | quiet
  /-- Also text outside the code. -/
  | wide
deriving DecidableEq, Repr

def Gap.allows (gap : Gap) (node : Node) : Bool :=
  match gap with
  | .nothing => false
  | .quiet => node.isTrivia && !node.isOutside
  | .wide => node.isTrivia

namespace Reader

variable {α σ : Type}

/-! ## Nodes -/

def push (part : Expression) : Reader Unit :=
  modify fun reading => { reading with parts := part :: reading.parts }

/-- Notes whether something that has been taken was read without passing over any
of it. -/
def note (regular : Bool) : Reader Unit :=
  modify fun reading => { reading with regular := reading.regular && regular }

/-- Adds a node under one of the readings of its inside. -/
def add (taken : Node) (inside : Content → Inside) : Reader Unit := do
  push (taken.withInside (inside taken.content).parts)
  note (inside taken.content).regular

def skip (gap : Gap) : Reader Unit :=
  modify fun reading =>
    let (between, rest) := reading.rest.span gap.allows
    { reading with
      rest := rest
      parts := between.foldl (fun parts node => node.plain :: parts) reading.parts }

/-- The node behind a gap, which is not taken. -/
def peek (gap : Gap) : Reader (Option Node) :=
  return ((← get).rest.dropWhile gap.allows).head?

/-- The node behind a gap passes the test. Nothing is taken. -/
def sees (gap : Gap) (test : Node → Bool) : Reader Bool :=
  return (← peek gap).any test

/-- Takes the gap and the node behind it, which has to pass the test. The node is
not added to the parts. -/
def next (gap : Gap) (test : Node → Bool) : Reader Node := do
  skip gap
  let reading ← get
  match reading.rest with
  | node :: rest =>
    if test node then
      set { reading with rest := rest }
      return node
    else failure
  | [] => failure

/-- Takes a node that passes the test. -/
def node (gap : Gap) (test : Node → Bool) : Reader Unit := do
  push (← next gap test).plain

def symbol (gap : Gap) (text : String) : Reader Unit :=
  node gap (Node.isSymbol text)

def symbolIn (gap : Gap) (texts : List String) : Reader Unit :=
  node gap (fun candidate => candidate.symbol?.any texts.contains)

def keyword (gap : Gap) (text : String) : Reader Unit :=
  node gap (Node.isKeyword text)

def keywordIn (gap : Gap) (texts : List String) : Reader Unit :=
  node gap (Node.isKeywordIn texts)

/-- Takes a word, whatever it means elsewhere. -/
def word (gap : Gap) : Reader String := do
  let taken ← next gap Node.isWord
  push taken.plain
  return taken.word?.getD ""

/-- Takes a group under one of the readings of its inside. -/
def group (gap : Gap) (bracket : Bracket) (inside : Content → Inside) : Reader Content := do
  let taken ← next gap (Node.isGroup bracket)
  add taken inside
  return taken.content

def items (gap : Gap) (bracket : Bracket) : Reader Unit :=
  discard (group gap bracket Content.items)

def atEnd : Reader Bool :=
  return (← peek .wide).isNone

/-! ## Repetition -/

/-- The reader, or nothing at all. Tells whether the reader applied. -/
def maybe (reader : Reader Unit) : Reader Bool :=
  (do reader; return true) <|> return false

/-- Repeats a step until it stops. Every step has to take a node, so the nodes at
the start bound the number of steps. -/
def iterate (step : σ → Reader (Option σ)) :
    (bound : List Node) → σ → Reading → Option (σ × Reading)
  | [], state, reading => some (state, reading)
  | _ :: bound, state, reading =>
    match step state reading with
    | none => none
    | some (none, behind) => some (state, behind)
    | some (some following, behind) => iterate step bound following behind

/-- Repeats a step from a state until it stops, and gives the last state. -/
def repeatFrom (start : σ) (step : σ → Reader (Option σ)) : Reader σ :=
  fun reading => iterate step reading.rest start reading

/-- Applies a reader as often as it applies. -/
def many (reader : Reader Unit) : Reader Unit :=
  repeatFrom () (fun _ => (do reader; return some ()) <|> return none)

/-- The readings of a rule as often as it applies, in order. -/
def collect (reader : Reader α) : Reader (List α) := do
  let found ← repeatFrom ([] : List α) fun found =>
    (do return some ((← reader) :: found)) <|> return none
  return found.reverse

/-- One or more readings with commas between them. -/
def listed (gap : Gap) (reader : Reader α) : Reader (List α) := do
  let first ← reader
  let others ← collect (do symbol gap ","; reader)
  return first :: others

/-! ## Parts -/

/-- What a reader gives, and the parts that it adds, which are taken away again. -/
def capture (reader : Reader α) : Reader (α × List Expression) := do
  let before := (← get).parts
  modify fun reading => { reading with parts := [] }
  let value ← reader
  let added := (← get).parts.reverse
  modify fun reading => { reading with parts := before }
  return (value, added)

/-- What a reader gives, and the parts that it adds. -/
def record (reader : Reader α) : Reader (α × List Expression) := do
  let (value, added) ← capture reader
  modify fun reading => { reading with parts := added.reverse ++ reading.parts }
  return (value, added)

/-- The exact text of what a reader takes. -/
def textOf (reader : Reader Unit) : Reader String := do
  return Expression.textOf (← record reader).2

/-! ## Whole lists -/

/-- The reading of a list by a reader that takes all of it, trivia at the end
aside, with the parts. -/
def whole? (reader : Reader α) (nodes : List Node) : Option (α × Inside) :=
  match (do let value ← reader; skip .wide; return value : Reader α) ⟨nodes, [], true⟩ with
  | some (value, ⟨[], parts, regular⟩) => some (value, ⟨parts.reverse, regular⟩)
  | _ => none

def anyNode : Reader Unit :=
  node .nothing (fun _ => true)

/-- The readings of a rule in a list and all parts of the list. Where the rule
does not apply, `otherwise` takes something else. -/
def throughout (rule : Reader α) (otherwise : Reader Unit) (nodes : List Node) :
    List α × Inside :=
  let step (found : List α) : Reader (Option (List α)) := do
    if ← atEnd then return none
    (do return some ((← rule) :: found)) <|> (do otherwise; return some found)
  match (do let found ← repeatFrom ([] : List α) step; skip .wide; return found)
      ⟨nodes, [], true⟩ with
  | some (found, reading) => (found.reverse, ⟨reading.parts.reverse, reading.regular⟩)
  | none => ([], ⟨nodes.map Node.plain, false⟩)

end Reader

end FactoryProxy.Php
