import FactoryProxy.Php.Grammar.Member

/-!
Contract: declarations of classes, namespaces and imports.

Owns: the reading of the statements that are kept.
-/

namespace FactoryProxy.Php.Grammar

open Reader

/-! ## Classes -/

def kindOf? (keyword : String) : Option ClassKind :=
  if keyword = "class" then some .classKind
  else if keyword = "interface" then some .interfaceKind
  else if keyword = "trait" then some .traitKind
  else if keyword = "enum" then some .enumKind
  else none

/-- The keyword of a kind of declaration. -/
def classKind : Reader ClassKind := do
  match kindOf? (Text.fold (← word .wide)) with
  | some kind => return kind
  | none => failure

/-- A class without a name. -/
def nameless (kind : ClassKind) : Reader Statement := do
  if kind != .classKind then failure
  discard (group .wide .curly Content.body)
  note false
  return .nameless

/-- Words behind the name of a class that start no clause of its head are passed over. -/
def strayWords : Reader Unit :=
  many do
    if ← sees .wide (Node.isKeywordIn ["extends", "implements"]) then failure
    discard (word .wide)
    note false

/-- The declaration of a class behind the keyword of its kind. -/
def namedClass (start : Nat) (isAbstract : Bool) (kind : ClassKind) : Reader Statement := do
  let name ← word .wide
  strayWords
  if kind == .enumKind then discard (maybe (resultType .wide))
  let parents ← heritageIfAny "extends"
  let interfaces ← heritageIfAny "implements"
  let content ← group .wide .curly Content.body
  return .declaration {
    kind := kind
    name := name
    isAbstract := isAbstract
    parents := parents
    interfaces := interfaces
    constructor := content.constructor
    line := start }

/-- A declaration of a class, an interface, a trait or an enumeration. It starts
with its attributes and modifiers. -/
def classDeclaration : Reader Statement := do
  let start := ((← peek .wide).map Node.line).getD 0
  attributes
  let modifiers ← collect modifier
  let kind ← classKind
  nameless kind <|> namedClass start (modifiers.contains "abstract") kind

/-! ## Imports -/

/-- The keyword of an import that imports no class. -/
def importMarker : Reader Bool :=
  maybe do
    keywordIn .wide ["function", "const"]
    if !(← sees .wide (fun candidate => candidate.isWord || candidate.isSymbol "\\")) then
      failure

/-- An imported name, and the name that it is given. -/
def importClause : Reader ImportClause := do
  let marked ← importMarker
  let target ← name .quiet
  let localName ← (do keyword .quiet "as"; return some (← word .wide)) <|> return none
  return ⟨marked, target, localName⟩

/-- Names in braces below a common start. -/
def importGroup (marked : Bool) : Reader ImportSyntax := do
  let above ← name .quiet
  symbol .quiet "\\"
  let members ← next .quiet (Node.isGroup .curly)
  push members.plain
  return ⟨marked, some above, (throughout importClause anyNode members.inner).1⟩

def importList (marked : Bool) : Reader ImportSyntax :=
  return ⟨marked, none, ← listed .quiet importClause⟩

def importDeclaration : Reader Statement := do
  keyword .wide "use"
  let marked ← importMarker
  let declared ← importGroup marked <|> importList marked
  terminator
  return .imports declared

/-! ## Namespaces -/

def namespaceBlock (named : String) (gap : Gap) : Reader Statement :=
  return .namespaceBlock named (← group gap .curly Content.block).statements

def namespaceStart (named : String) : Reader Statement := do
  terminator
  return .namespaceStart named

/-- A namespace with a name, a block or both. -/
def namespaceDefinition : Reader Statement := do
  keyword .wide "namespace"
  namespaceBlock "" .wide <|> do
    let named ← name .quiet
    namespaceStart named <|> namespaceBlock named .quiet

/-- A statement that is kept. -/
def keptStatement : Reader Statement :=
  namespaceDefinition <|> importDeclaration <|> classDeclaration

end FactoryProxy.Php.Grammar
