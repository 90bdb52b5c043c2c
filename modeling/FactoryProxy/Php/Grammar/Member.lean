import FactoryProxy.Php.Grammar.Parameter

/-!
Contract: what stands in the body of a class.

Of the members only the first method named `__construct` is kept. The hooks of a
property stand in braces like a body and are read as members too.

Owns: members, constants and the body of a class.
-/

namespace FactoryProxy.Php.Grammar

open Reader

def constant : Reader Unit := do
  discard (word .wide)
  symbol .wide "="
  expression .quiet

/-- Constants, a type before them or not. -/
def constants : Reader Unit := do
  keyword .wide "const"
  discard (listed .quiet constant)
    <|> (do discard (typeHint .wide); discard (listed .quiet constant))
  terminator

/-- A block, or the end of a declaration without one. -/
def blockOrEnd : Reader Unit :=
  discard (group .quiet .curly Content.block) <|> terminator

/-- The name and the parameters of a function. -/
def functionHead : Reader (String × List ParameterSyntax) := do
  keyword .wide "function"
  discard (maybe (symbol .wide "&"))
  let name ← word .wide
  let content ← group .wide .round Content.signature
  return (name, content.parameters)

/-- A method with the names of its modifiers, as far as it is a constructor. -/
def method (modifiers : List String) : Reader (Option ConstructorSyntax) := do
  let (name, parameters) ← functionHead
  discard (maybe (resultType .quiet))
  blockOrEnd
  let visible := modifiers.filter (fun text => !otherModifiers.contains text)
  return if Text.fold name = "__construct" then some ⟨visible.getLast?, parameters⟩ else none

/-- Traits, and the braces that settle their conflicts. -/
def traitUse : Reader Unit := do
  keyword .wide "use"
  discard (listed .quiet (name .quiet))
  items .quiet .curly <|> terminator

def assignedValue : Reader Unit := do
  symbol .quiet "="
  expression .quiet

def enumCase : Reader Unit := do
  keyword .wide "case"
  discard (word .wide)
  discard (maybe assignedValue)
  terminator

def property : Reader Unit := do
  discard hintIfAny
  discard (listed .quiet (do
    symbol .wide "$"
    discard (word .wide)
    discard (maybe assignedValue)))
  discard (group .quiet .curly Content.body) <|> terminator

def hook : Reader Unit := do
  discard (maybe (symbol .wide "&"))
  discard (word .wide)
  discard (maybe (discard (group .quiet .round Content.signature)))
  (do symbol .quiet "=>"; expression .quiet; terminator) <|> blockOrEnd

/-- A member of a class, as far as it is a constructor. -/
def member : Reader (Option ConstructorSyntax) := do
  attributes
  let modifiers ← collect modifier
  method modifiers
    <|> (do constants <|> traitUse <|> enumCase <|> property <|> hook; return none)

/-! ## What no rule applies to -/

/-- A node at which a rule may apply again, or behind it. -/
def isStop (node : Node) : Bool :=
  match node with
  | .leaf _ token =>
    match token.kind with
    | .closing _ | .outside => true
    | .symbol => token.text == ";"
    | _ => false
  | .group _ _ _ _ _ => node.isGroup .curly

/-- Takes everything through the next node at which a rule may apply again. -/
def passOver : Reader Unit := do
  note false
  many (node .nothing (fun candidate => !isStop candidate))
  discard (maybe anyNode)

/-- The first constructor in the body of a class, and the body. -/
def bodyOf (nodes : List Node) : Option ConstructorSyntax × Inside :=
  let (found, body) := throughout member passOver nodes
  (found.findSome? id, body)

end FactoryProxy.Php.Grammar
