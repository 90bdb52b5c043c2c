import FactoryProxy.Toml.Moment
import FactoryProxy.Toml.Text
import FactoryProxy.Toml.Value

/-!
Contract: the statements of a settings document.

A statement assigns a value to a key or opens a table. A key is a list of names
joined by dots.

Owns: keys, values, statements and their readers.
Does not own: what statements add up to. Inline tables are read as lists of
assignments.
-/

namespace FactoryProxy.Toml

/-- A value as it is written, inline tables as assignments. -/
inductive Written where
  | text (text : String)
  | moment (normalForm : String)
  | list (elements : List Written)
  | table (assignments : List (List String × Written))
deriving Repr

inductive Statement where
  | assign (key : List String) (value : Written)
  | openTable (key : List String)
deriving Repr

/-! ## Keys -/

def isBareKeyCharacter (c : Char) : Bool :=
  c.isAlphanum || c == '_' || c == '-'

/-- A name bare or in quotes on one line. -/
def name? (characters : List Char) : Option (String × List Char) :=
  match characters with
  | '"' :: rest => (basic? rest).map (fun read => (String.ofList read.1, read.2))
  | '\'' :: rest => (literal? rest).map (fun read => (String.ofList read.1, read.2))
  | _ =>
    let bare := characters.takeWhile isBareKeyCharacter
    if bare.isEmpty then none else some (String.ofList bare, characters.drop bare.length)

/-- A key of at most `count` names, with the blanks behind it. -/
def key? : (count : Nat) → List Char → Option (List String × List Char)
  | 0, _ => none
  | count + 1, characters => do
    let (name, rest) ← name? (skipBlanks characters)
    match skipBlanks rest with
    | '.' :: below =>
      let (names, behind) ← key? count below
      return (name :: names, behind)
    | rest => return ([name], rest)

/-! ## Values -/

/-- A text, a date or a time. -/
def scalar? (characters : List Char) : Option (Written × List Char) :=
  if characters.head?.any Char.isDigit then
    (moment? characters).map (fun read => (.moment read.1, read.2))
  else (text? characters).map (fun read => (.text read.1, read.2))

/-- Where an assignment stands. In an inline table lines may break around the equals
sign. -/
inductive Frame where
  | line
  | inlineTable
deriving DecidableEq, Repr

/-- The rest behind what may stand around the equals sign. -/
def Frame.skip : Frame → List Char → List Char
  | .line => skipBlanks
  | .inlineTable => skipSpace

mutual

/-- A value nested at most `depth` deep. -/
def value? : (depth : Nat) → List Char → Option (Written × List Char)
  | 0, _ => none
  | depth + 1, characters =>
    match characters with
    | '[' :: rest => (elements? depth (skipSpace rest)).map (fun read => (.list read.1, read.2))
    | '\x7b' :: rest =>
      (assignments? depth (skipSpace rest)).map (fun read => (.table read.1, read.2))
    | _ => scalar? characters

/-- The elements of a list up to its closing bracket. -/
def elements? : (depth : Nat) → List Char → Option (List Written × List Char)
  | 0, _ => none
  | depth + 1, characters =>
    match characters with
    | ']' :: rest => some ([], rest)
    | _ => do
      let (element, behind) ← value? depth characters
      match skipSpace behind with
      | ',' :: rest =>
        let (others, behind) ← elements? depth (skipSpace rest)
        return (element :: others, behind)
      | ']' :: rest => return ([element], rest)
      | _ => none

/-- The assignments of an inline table up to its closing brace. -/
def assignments? : (depth : Nat) → List Char → Option (List (List String × Written) × List Char)
  | 0, _ => none
  | depth + 1, characters =>
    match characters with
    | '\x7d' :: rest => some ([], rest)
    | _ => do
      let (assigned, behind) ← assignment? .inlineTable depth characters
      match skipSpace behind with
      | ',' :: rest =>
        let (others, behind) ← assignments? depth (skipSpace rest)
        return (assigned :: others, behind)
      | '\x7d' :: rest => return ([assigned], rest)
      | _ => none

/-- A key, an equals sign and a value. -/
def assignment? (frame : Frame) :
    (depth : Nat) → List Char → Option ((List String × Written) × List Char)
  | 0, _ => none
  | depth + 1, characters => do
    let (key, behind) ← key? (characters.length + 1) characters
    match frame.skip behind with
    | '=' :: rest =>
      let (value, behind) ← value? depth (frame.skip rest)
      return ((key, value), behind)
    | _ => none

end

/-! ## Documents -/

/-- The statement at the head of a line. -/
def statement? (characters : List Char) : Option (Statement × List Char) :=
  match characters with
  | '[' :: rest => do
    let (key, behind) ← key? (rest.length + 1) rest
    match behind with
    | ']' :: rest => return (.openTable key, rest)
    | _ => none
  | _ =>
    (assignment? .line (2 * characters.length + 2) characters).map
      (fun read => (.assign read.1.1 read.1.2, read.2))

/-- The statements of at most `count` lines. -/
def statements? : (count : Nat) → List Char → Option (List Statement)
  | 0, _ => none
  | count + 1, characters =>
    match skipSpace characters with
    | [] => some []
    | line => do
      let (statement, behind) ← statement? line
      let rest ← endLine? behind
      let others ← statements? count rest
      return statement :: others

/-- The statements of a document. A byte order mark at its start does not count. -/
def statementsOf? (text : String) : Option (List Statement) :=
  let characters := match text.toList with
    | '\ufeff' :: rest => rest
    | characters => characters
  statements? (characters.length + 1) characters

end FactoryProxy.Toml
