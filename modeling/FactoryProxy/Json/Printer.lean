import FactoryProxy.Digest.Sha256
import FactoryProxy.Json.Value

/-!
Contract: the text of JSON values.

The compact form has no white space. The indented form puts every element and
every member on a line of its own, indented by two spaces per level, except that
empty lists and objects stay on one line. In texts the quote, the backslash and
control characters below the space are escaped and everything else is verbatim.

Owns: both forms.
-/

namespace FactoryProxy.Json

/-- A character as it stands between quotes. -/
def escaped (c : Char) : List Char :=
  match c with
  | '"' => ['\\', '"']
  | '\\' => ['\\', '\\']
  | '\x08' => ['\\', 'b']
  | '\x0c' => ['\\', 'f']
  | '\n' => ['\\', 'n']
  | '\r' => ['\\', 'r']
  | '\t' => ['\\', 't']
  | c => if c.toNat < 32 then ['\\', 'u'] ++ Digest.hexDigits 4 c.toNat else [c]

def quoted (text : String) : List Char :=
  '"' :: text.toList.flatMap escaped ++ ['"']

def booleanText (value : Bool) : List Char :=
  (if value then "true" else "false").toList

namespace Value

mutual

def compact : Value → List Char
  | null => "null".toList
  | boolean value => booleanText value
  | number digits => digits.toList
  | text content => quoted content
  | broken => quoted ""
  | list elements => '[' :: compactElements elements ++ [']']
  | object members => '\x7b' :: compactMembers members ++ ['\x7d']

def compactElements : List Value → List Char
  | [] => []
  | [element] => element.compact
  | element :: rest => element.compact ++ ',' :: compactElements rest

def compactMembers : List (String × Value) → List Char
  | [] => []
  | [(key, value)] => quoted key ++ ':' :: value.compact
  | (key, value) :: rest => quoted key ++ ':' :: value.compact ++ ',' :: compactMembers rest

end

/-- A line break and the indentation of a level. -/
def newLine (level : Nat) : List Char :=
  '\n' :: List.replicate (2 * level) ' '

mutual

def indented (level : Nat) : Value → List Char
  | list (first :: rest) =>
    '[' :: indentedElements (level + 1) (first :: rest) ++ newLine level ++ [']']
  | object (first :: rest) =>
    '\x7b' :: indentedMembers (level + 1) (first :: rest) ++ newLine level ++ ['\x7d']
  | list [] => ['[', ']']
  | object [] => ['\x7b', '\x7d']
  | null => "null".toList
  | boolean value => booleanText value
  | number digits => digits.toList
  | text content => quoted content
  | broken => quoted ""

/-- Elements, each on its line, with a comma between neighbours. -/
def indentedElements (level : Nat) : List Value → List Char
  | [] => []
  | [element] => newLine level ++ element.indented level
  | element :: rest =>
    newLine level ++ element.indented level ++ ',' :: indentedElements level rest

/-- Members, each on its line, with a comma between neighbours. -/
def indentedMembers (level : Nat) : List (String × Value) → List Char
  | [] => []
  | [(key, value)] => newLine level ++ quoted key ++ ':' :: ' ' :: value.indented level
  | (key, value) :: rest =>
    newLine level ++ quoted key ++ ':' :: ' ' :: value.indented level ++
      ',' :: indentedMembers level rest

end

def compactText (value : Value) : String := String.ofList value.compact

def indentedText (value : Value) : String := String.ofList (value.indented 0)

end Value

end FactoryProxy.Json
