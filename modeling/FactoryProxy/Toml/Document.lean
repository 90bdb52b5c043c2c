import FactoryProxy.Toml.Syntax

/-!
Contract: the table that a settings document describes.

Every key is assigned once. A table is either opened by one line of its own,
built by keys with dots, or written inline; only a table that so far is just part
of the name of another may still be opened.

Owns: the rules about repeated and mixed definitions, and the reading of a text.
-/

namespace FactoryProxy.Toml

/-- How a table came to be. -/
inductive TableOrigin where
  /-- Its name is part of the name of an opened table. -/
  | implied
  /-- It has been opened. -/
  | opened
  /-- Keys with dots go through it. -/
  | dotted
deriving DecidableEq, Repr

/-- What a name stands for while a document is read. -/
inductive Node where
  | value (value : Value)
  | table (origin : TableOrigin) (entries : List (String × Node))
deriving Repr

abbrev Entries := List (String × Node)

/-- The entries with the node of a name changed. `change` sees the present node
and may refuse. -/
def Entries.update (entries : Entries) (name : String)
    (change : Option Node → Option Node) : Option Entries :=
  match entries with
  | [] => (change none).map (fun node => [(name, node)])
  | entry :: rest =>
    if entry.1 = name then (change (some entry.2)).map (fun node => (name, node) :: rest)
    else (Entries.update rest name change).map (entry :: ·)

def openTable? (entries : Entries) : List String → Option Entries
  | [] => none
  | [name] =>
    entries.update name fun node =>
      match node with
      | none => some (.table .opened [])
      | some (.table .implied inner) => some (.table .opened inner)
      | some _ => none
  | name :: below =>
    entries.update name fun node =>
      match node with
      | none => (openTable? [] below).map (.table .implied)
      | some (.table origin inner) => (openTable? inner below).map (.table origin)
      | some (.value _) => none

/-- Assigns a value to a key below the entries. -/
def assign? (entries : Entries) (value : Value) : List String → Option Entries
  | [] => none
  | [name] =>
    entries.update name fun node =>
      match node with
      | none => some (.value value)
      | some _ => none
  | name :: below =>
    entries.update name fun node =>
      match node with
      | none => (assign? [] value below).map (.table .dotted)
      | some (.table .dotted inner) => (assign? inner value below).map (.table .dotted)
      | some _ => none

/-- Assigns a value to a key below the table that is open. -/
def assignIn? (entries : Entries) (value : Value) (key : List String) :
    List String → Option Entries
  | [] => assign? entries value key
  | name :: below =>
    entries.update name fun node =>
      match node with
      | some (.table origin inner) => (assignIn? inner value key below).map (.table origin)
      | _ => none

mutual

def valueOfNode : Node → Value
  | .value value => value
  | .table _ entries => .table (valuesOf entries)

def valuesOf : List (String × Node) → List (String × Value)
  | [] => []
  | (name, node) :: rest => (name, valueOfNode node) :: valuesOf rest

end

mutual

def meaning? : Written → Option Value
  | .text text => some (.text text)
  | .moment normalForm => some (.moment normalForm)
  | .list elements => (meanings? elements).map .list
  | .table assignments => (inline? [] assignments).map (fun entries => .table (valuesOf entries))

def meanings? : List Written → Option (List Value)
  | [] => some []
  | element :: rest => do
    let value ← meaning? element
    let others ← meanings? rest
    return value :: others

/-- The entries with the assignments of an inline table added. -/
def inline? (entries : Entries) : List (List String × Written) → Option Entries
  | [] => some entries
  | (key, written) :: rest => do
    let value ← meaning? written
    let entries ← assign? entries value key
    inline? entries rest

end

/-- The entries after statements, given the key of the table that is open. -/
def build? (entries : Entries) (current : List String) : List Statement → Option Entries
  | [] => some entries
  | .openTable key :: rest => do
    let entries ← openTable? entries key
    build? entries key rest
  | .assign key written :: rest => do
    let value ← meaning? written
    let entries ← assignIn? entries value key current
    build? entries current rest

def parse? (text : String) : Option (List (String × Value)) := do
  let statements ← statementsOf? text
  let entries ← build? [] [] statements
  return valuesOf entries

end FactoryProxy.Toml
