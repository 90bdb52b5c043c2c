/-!
Contract: the texts of a settings document.

A text stands between quotes, basic ones with escapes or literal ones without. In
three quotes it may run over several lines, and then a line break right behind
the opening quotes does not count.

Owns: white space, comments, line ends and the four kinds of text. Every reader
takes what it reads from the head of the characters and gives the rest.
-/

namespace FactoryProxy.Toml

/-! ## Between tokens -/

def isBlank (c : Char) : Bool :=
  c == ' ' || c == '\t'

def skipBlanks (characters : List Char) : List Char :=
  characters.dropWhile isBlank

/-- A control character other than the tabulator. -/
def isForbidden (c : Char) : Bool :=
  (c.toNat < 32 && c != '\t') || c.toNat == 127

def lineBreak? : List Char → Option (List Char)
  | '\n' :: rest => some rest
  | '\r' :: '\n' :: rest => some rest
  | _ => none

/-- The rest behind a comment, if there is one; the line break stays. -/
def skipComment (characters : List Char) : List Char :=
  match characters with
  | '#' :: rest => rest.dropWhile (fun c => !isForbidden c)
  | _ => characters

/-- The rest behind the end of a line, which may hold a comment. -/
def endLine? (characters : List Char) : Option (List Char) :=
  match skipComment (skipBlanks characters) with
  | [] => some []
  | rest => lineBreak? rest

/-- The rest behind blanks, comments and line breaks. -/
def skipSpace : List Char → List Char
  | ' ' :: rest => skipSpace rest
  | '\t' :: rest => skipSpace rest
  | '\n' :: rest => skipSpace rest
  | '\r' :: '\n' :: rest => skipSpace rest
  | '#' :: rest => skipRemark rest
  | characters => characters
where
  /-- The rest behind a comment that has begun. -/
  skipRemark : List Char → List Char
    | '\n' :: rest => skipSpace rest
    | '\r' :: '\n' :: rest => skipSpace rest
    | c :: rest => if isForbidden c then c :: rest else skipRemark rest
    | [] => []

/-! ## Escapes -/

def hexValue? (c : Char) : Option Nat :=
  if c.isDigit then some (c.toNat - '0'.toNat)
  else if 'a' ≤ c ∧ c ≤ 'f' then some (c.toNat - 'a'.toNat + 10)
  else if 'A' ≤ c ∧ c ≤ 'F' then some (c.toNat - 'A'.toNat + 10)
  else none

/-- The character with a code point in hexadecimal digits. -/
def codePoint? (digits : List Char) : Option Char :=
  (digits.foldlM (fun value c => (hexValue? c).map (fun digit => 16 * value + digit)) 0).bind
    fun value => if value.isValidChar then some (Char.ofNat value) else none

/-- The character written by a backslash and a letter. -/
def shortEscape? (c : Char) : Option Char :=
  match c with
  | 'b' => some '\x08'
  | 't' => some '\t'
  | 'n' => some '\n'
  | 'f' => some '\x0c'
  | 'r' => some '\r'
  | 'e' => some '\x1b'
  | '"' => some '"'
  | '\\' => some '\\'
  | _ => none

/-- The character written by an escape behind its backslash, and the rest. -/
def escape? : List Char → Option (Char × List Char)
  | 'x' :: rest => coded 2 rest
  | 'u' :: rest => coded 4 rest
  | 'U' :: rest => coded 8 rest
  | c :: rest => (shortEscape? c).map (fun meant => (meant, rest))
  | [] => none
where
  /-- A code point of that many digits. -/
  coded (count : Nat) (rest : List Char) : Option (Char × List Char) :=
    if (rest.take count).length = count then
      (codePoint? (rest.take count)).map (fun meant => (meant, rest.drop count))
    else none

theorem length_escape?_lt {characters rest : List Char} {meant : Char}
    (found : escape? characters = some (meant, rest)) :
    rest.length < characters.length := by
  have codedBelow : ∀ (count : Nat) (tail : List Char),
      escape?.coded count tail = some (meant, rest) → rest.length ≤ tail.length := by
    intro count tail isCoded
    unfold escape?.coded at isCoded
    split at isCoded
    · obtain ⟨_, _, same⟩ := Option.map_eq_some_iff.mp isCoded
      simp only [Prod.mk.injEq] at same
      simp [← same.2]
    · simp at isCoded
  unfold escape? at found
  split at found
  · have := codedBelow _ _ found
    simp only [List.length_cons]
    omega
  · have := codedBelow _ _ found
    simp only [List.length_cons]
    omega
  · have := codedBelow _ _ found
    simp only [List.length_cons]
    omega
  · obtain ⟨_, _, same⟩ := Option.map_eq_some_iff.mp found
    simp only [Prod.mk.injEq] at same
    simp [same.2]
  · simp at found

/-! ## Texts on one line -/

/-- A basic text behind its opening quote. -/
def basic? (characters : List Char) : Option (List Char × List Char) :=
  match characters with
  | [] => none
  | '"' :: rest => some ([], rest)
  | '\\' :: rest =>
    match found : escape? rest with
    | none => none
    | some (meant, behind) =>
      have := length_escape?_lt found
      (basic? behind).map (fun read => (meant :: read.1, read.2))
  | c :: rest =>
    if isForbidden c then none else (basic? rest).map (fun read => (c :: read.1, read.2))
termination_by characters.length

/-- A literal text behind its opening quote. -/
def literal? : List Char → Option (List Char × List Char)
  | [] => none
  | '\'' :: rest => some ([], rest)
  | c :: rest =>
    if isForbidden c then none else (literal? rest).map (fun read => (c :: read.1, read.2))

/-! ## Texts on several lines -/

/-- The rest behind the first line break, if one stands at the head. -/
def skipFirstBreak (characters : List Char) : List Char :=
  (lineBreak? characters).getD characters

/-- Closing quotes at the head: the quotes before them that belong to the text,
at most two, and the rest. -/
def closing? (quote : Char) (characters : List Char) : Option (List Char × List Char) :=
  let quotes := (characters.take 5).takeWhile (· == quote)
  if 3 ≤ quotes.length then some (quotes.drop 3, characters.drop quotes.length) else none

/-- The rest behind blanks and line breaks. -/
def skipLines : List Char → List Char
  | ' ' :: rest => skipLines rest
  | '\t' :: rest => skipLines rest
  | '\n' :: rest => skipLines rest
  | '\r' :: '\n' :: rest => skipLines rest
  | characters => characters

theorem length_skipLines_le (characters : List Char) :
    (skipLines characters).length ≤ characters.length := by
  fun_induction skipLines characters with
  | case1 rest inductionHypothesis => exact Nat.le_succ_of_le inductionHypothesis
  | case2 rest inductionHypothesis => exact Nat.le_succ_of_le inductionHypothesis
  | case3 rest inductionHypothesis => exact Nat.le_succ_of_le inductionHypothesis
  | case4 rest inductionHypothesis =>
      exact Nat.le_succ_of_le (Nat.le_succ_of_le inductionHypothesis)
  | case5 => exact Nat.le_refl _

/-- A basic text in three quotes behind the opening ones. A backslash at the end
of a line takes the line break and all white space behind it away. -/
def longBasic? (characters : List Char) : Option (List Char × List Char) :=
  match closing? '"' characters with
  | some closed => some closed
  | none =>
    match characters with
    | [] => none
    | '\\' :: rest =>
      if (lineBreak? (skipBlanks rest)).isSome then
        have := length_skipLines_le rest
        longBasic? (skipLines rest)
      else
        match found : escape? rest with
        | none => none
        | some (meant, behind) =>
          have := length_escape?_lt found
          (longBasic? behind).map (fun read => (meant :: read.1, read.2))
    | '\r' :: '\n' :: rest =>
      (longBasic? rest).map (fun read => ('\r' :: '\n' :: read.1, read.2))
    | c :: rest =>
      if isForbidden c && c != '\n' then none
      else (longBasic? rest).map (fun read => (c :: read.1, read.2))
termination_by characters.length
decreasing_by all_goals (simp only [List.length_cons]; omega)

/-- A literal text in three quotes behind the opening ones. -/
def longLiteral? (characters : List Char) : Option (List Char × List Char) :=
  match closing? '\'' characters with
  | some closed => some closed
  | none =>
    match characters with
    | [] => none
    | '\r' :: '\n' :: rest =>
      (longLiteral? rest).map (fun read => ('\r' :: '\n' :: read.1, read.2))
    | c :: rest =>
      if isForbidden c && c != '\n' then none
      else (longLiteral? rest).map (fun read => (c :: read.1, read.2))

def text? (characters : List Char) : Option (String × List Char) :=
  let read :=
    match characters with
    | '"' :: '"' :: '"' :: rest => longBasic? (skipFirstBreak rest)
    | '"' :: rest => basic? rest
    | '\'' :: '\'' :: '\'' :: rest => longLiteral? (skipFirstBreak rest)
    | '\'' :: rest => literal? rest
    | _ => none
  read.map (fun read => (String.ofList read.1, read.2))

end FactoryProxy.Toml
