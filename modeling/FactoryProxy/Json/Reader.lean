import FactoryProxy.Json.Value

/-!
Contract: JSON values read from text.

Owns: the reading of a whole text. Every reader takes what it reads from the head
of the characters and gives the rest.
-/

namespace FactoryProxy.Json

def isSpace (c : Char) : Bool :=
  c == ' ' || c == '\t' || c == '\n' || c == '\r'

def skipSpace (characters : List Char) : List Char :=
  characters.dropWhile isSpace

/-! ## Texts -/

def hexValue? (c : Char) : Option Nat :=
  if c.isDigit then some (c.toNat - '0'.toNat)
  else if 'a' ≤ c ∧ c ≤ 'f' then some (c.toNat - 'a'.toNat + 10)
  else if 'A' ≤ c ∧ c ≤ 'F' then some (c.toNat - 'A'.toNat + 10)
  else none

/-- The number written by four hexadecimal digits. -/
def unit? (a b c d : Char) : Option Nat := do
  let a ← hexValue? a
  let b ← hexValue? b
  let c ← hexValue? c
  let d ← hexValue? d
  return ((a * 16 + b) * 16 + c) * 16 + d

def isLeading (unit : Nat) : Bool := 0xD800 ≤ unit && unit < 0xDC00

def isTrailing (unit : Nat) : Bool := 0xDC00 ≤ unit && unit < 0xE000

def paired (leading trailing : Nat) : Char :=
  Char.ofNat (0x10000 + (leading - 0xD800) * 0x400 + (trailing - 0xDC00))

def shortEscape? (c : Char) : Option Char :=
  match c with
  | '"' => some '"'
  | '\\' => some '\\'
  | '/' => some '/'
  | 'b' => some '\x08'
  | 'f' => some '\x0c'
  | 'n' => some '\n'
  | 'r' => some '\r'
  | 't' => some '\t'
  | _ => none

/-- The codes of a text behind its opening quote: code points of characters and
units of escapes. -/
def codes? : List Char → Option (List Nat × List Char)
  | [] => none
  | '"' :: rest => some ([], rest)
  | '\\' :: 'u' :: a :: b :: c :: d :: rest => do
    let unit ← unit? a b c d
    let (codes, behind) ← codes? rest
    return (unit :: codes, behind)
  | '\\' :: c :: rest => do
    let meant ← shortEscape? c
    let (codes, behind) ← codes? rest
    return (meant.toNat :: codes, behind)
  | c :: rest =>
    if c.toNat < 32 || c == '\\' then none
    else (codes? rest).map (fun read => (c.toNat :: read.1, read.2))

/-- The characters of codes. Half of a surrogate pair stands for none. -/
def charactersOf? : List Nat → Option (List Char)
  | [] => some []
  | [code] => if isLeading code || isTrailing code then none else some [Char.ofNat code]
  | first :: second :: rest =>
    if isLeading first then
      if isTrailing second then (charactersOf? rest).map (paired first second :: ·) else none
    else if isTrailing first then none
    else (charactersOf? (second :: rest)).map (Char.ofNat first :: ·)

def text? (characters : List Char) : Option (Option String × List Char) :=
  (codes? characters).map (fun read => ((charactersOf? read.1).map String.ofList, read.2))

/-! ## Numbers -/

def digits? (characters : List Char) : Option (List Char × List Char) :=
  let digits := characters.takeWhile Char.isDigit
  if digits.isEmpty then none else some (digits, characters.drop digits.length)

/-- Digits without a zero before others. -/
def integer? (characters : List Char) : Option (List Char × List Char) :=
  match characters with
  | '0' :: rest => if rest.head?.any Char.isDigit then none else some (['0'], rest)
  | _ => digits? characters

/-- A point and digits, if a point is there. -/
def fraction? (characters : List Char) : Option (List Char × List Char) :=
  match characters with
  | '.' :: rest => (digits? rest).map (fun read => ('.' :: read.1, read.2))
  | _ => some ([], characters)

/-- A power of ten, if one is there. -/
def exponent? (characters : List Char) : Option (List Char × List Char) :=
  match characters with
  | mark :: rest =>
    if mark == 'e' || mark == 'E' then
      match rest with
      | sign :: digits =>
        if sign == '+' || sign == '-' then
          (digits? digits).map (fun read => (mark :: sign :: read.1, read.2))
        else (digits? rest).map (fun read => (mark :: read.1, read.2))
      | [] => none
    else some ([], characters)
  | [] => some ([], [])

def number? (characters : List Char) : Option (Value × List Char) := do
  let (sign, rest) := match characters with
    | '-' :: rest => (['-'], rest)
    | _ => ([], characters)
  let (whole, rest) ← integer? rest
  let (fraction, rest) ← fraction? rest
  let (exponent, rest) ← exponent? rest
  return (.number (String.ofList (sign ++ whole ++ fraction ++ exponent)), rest)

/-! ## Values -/

def word? : List Char → List Char → Option (List Char)
  | [], rest => some rest
  | _ :: _, [] => none
  | expected :: more, actual :: rest => if expected = actual then word? more rest else none

/-- The object with members whose keys may stand for no characters. -/
def objectOf (members : List (Option String × Value)) : Value :=
  match members.mapM (fun member => member.1.map (fun key => (key, member.2))) with
  | some members => .object members
  | none => .broken

mutual

/-- A value behind white space; `depth` exceeds the number of characters. -/
def value? : (depth : Nat) → List Char → Option (Value × List Char)
  | 0, _ => none
  | depth + 1, characters =>
    match skipSpace characters with
    | [] => none
    | '"' :: rest =>
      (text? rest).map (fun read => ((read.1.map Value.text).getD .broken, read.2))
    | '[' :: rest =>
      match skipSpace rest with
      | ']' :: behind => some (.list [], behind)
      | inner => (elements? depth inner).map (fun read => (.list read.1, read.2))
    | '\x7b' :: rest =>
      match skipSpace rest with
      | '\x7d' :: behind => some (.object [], behind)
      | inner => (members? depth inner).map (fun read => (objectOf read.1, read.2))
    | 'n' :: rest => (word? "ull".toList rest).map (fun behind => (.null, behind))
    | 't' :: rest => (word? "rue".toList rest).map (fun behind => (.boolean true, behind))
    | 'f' :: rest => (word? "alse".toList rest).map (fun behind => (.boolean false, behind))
    | characters => number? characters

/-- One or more elements up to the closing bracket. -/
def elements? : (depth : Nat) → List Char → Option (List Value × List Char)
  | 0, _ => none
  | depth + 1, characters => do
    let (element, behind) ← value? depth characters
    match skipSpace behind with
    | ',' :: rest =>
      let (others, behind) ← elements? depth rest
      return (element :: others, behind)
    | ']' :: rest => return ([element], rest)
    | _ => none

/-- One or more members up to the closing brace. -/
def members? : (depth : Nat) → List Char → Option (List (Option String × Value) × List Char)
  | 0, _ => none
  | depth + 1, characters => do
    let (member, behind) ← member? depth characters
    match skipSpace behind with
    | ',' :: rest =>
      let (others, behind) ← members? depth rest
      return (member :: others, behind)
    | '\x7d' :: rest => return ([member], rest)
    | _ => none

/-- A key, a colon and a value. -/
def member? : (depth : Nat) → List Char → Option ((Option String × Value) × List Char)
  | 0, _ => none
  | depth + 1, characters =>
    match skipSpace characters with
    | '"' :: rest => do
      let (key, behind) ← text? rest
      match skipSpace behind with
      | ':' :: rest =>
        let (value, behind) ← value? depth rest
        return ((key, value), behind)
      | _ => none
    | _ => none

end

/-- The value that a whole text writes. -/
def parse? (text : String) : Option Value := do
  let characters := text.toList
  let (value, rest) ← value? (2 * characters.length + 2) characters
  if (skipSpace rest).isEmpty then some value else none

end FactoryProxy.Json
