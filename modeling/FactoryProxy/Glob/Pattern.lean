/-!
Contract: file name patterns.

A pattern is a list of tokens. `?` stands for one character, `*` for any text,
`[…]` for one character of a class and `**` for any number of whole segments of a
path, together with the slash behind it.

Owns: tokens, the reading of a pattern and its failures.
Does not own: matching.
-/

namespace FactoryProxy.Glob

/-- The characters from the first to the last one. -/
structure CharacterRange where
  first : Char
  last : Char
deriving DecidableEq, Repr

inductive Token where
  | character (c : Char)
  | anyCharacter
  | anyText
  | anySegments
  | oneOf (ranges : List CharacterRange)
  | noneOf (ranges : List CharacterRange)
deriving DecidableEq, Repr

/-- Why a text is no pattern. Positions count characters. -/
inductive PatternFailure where
  | openClass (position : Nat)
  | partialSegment (position : Nat)
  | tooManyStars (position : Nat)
deriving DecidableEq, Repr

namespace PatternFailure

def describe (position : Nat) (what : String) : String :=
  "Pattern syntax error near position " ++ toString position ++ ": " ++ what

def message : PatternFailure → String
  | openClass position => describe position "invalid range pattern"
  | partialSegment position =>
    describe position "recursive wildcards must form a single path component"
  | tooManyStars position =>
    describe position "wildcards are either regular `*` or recursive `**`"

end PatternFailure

/-- The ranges inside the brackets of a class. A minus between two characters
makes a range. -/
def rangesOf : List Char → List CharacterRange
  | [] => []
  | first :: '-' :: last :: rest => ⟨first, last⟩ :: rangesOf rest
  | c :: rest => ⟨c, c⟩ :: rangesOf rest

/-- What stands before the first closing bracket and behind it. The first
character belongs to the class even if it is a bracket. -/
def classBody? : List Char → Option (List Char × List Char)
  | [] => none
  | first :: rest =>
    let inner := rest.takeWhile (fun c => c != ']')
    match rest.drop inner.length with
    | [] => none
    | _ :: behind => some (first :: inner, behind)

theorem length_classBody?_lt {characters inner behind : List Char}
    (found : classBody? characters = some (inner, behind)) :
    behind.length < characters.length := by
  cases characters with
  | nil => simp [classBody?] at found
  | cons first rest =>
      unfold classBody? at found
      dsimp only at found
      split at found
      · simp at found
      · rename_i dropped
        simp only [Option.some.injEq, Prod.mk.injEq] at found
        have := congrArg List.length dropped
        simp only [List.length_drop, List.length_cons] at this ⊢
        rw [← found.2]
        omega

/-- The class behind an opening bracket and what follows it. -/
def class? (characters : List Char) : Option (Token × List Char) :=
  match characters with
  | '!' :: rest => (classBody? rest).map (fun body => (.noneOf (rangesOf body.1), body.2))
  | _ => (classBody? characters).map (fun body => (.oneOf (rangesOf body.1), body.2))

theorem length_class?_lt {characters rest : List Char} {token : Token}
    (found : class? characters = some (token, rest)) : rest.length < characters.length := by
  unfold class? at found
  split at found
  · obtain ⟨body, isBody, same⟩ := Option.map_eq_some_iff.mp found
    have := length_classBody?_lt isBody
    simp only [Prod.mk.injEq] at same
    simp only [List.length_cons, ← same.2]
    omega
  · obtain ⟨body, isBody, same⟩ := Option.map_eq_some_iff.mp found
    have := length_classBody?_lt isBody
    simp only [Prod.mk.injEq] at same
    rw [← same.2]
    exact this

/-- Reads the pattern from a position on. `previous` is the character before it. -/
def read (position : Nat) (previous : Option Char) (characters : List Char) :
    Except PatternFailure (List Token) :=
  match characters with
  | [] => .ok []
  | '*' :: '*' :: '*' :: _ => .error (.tooManyStars (position + 2))
  | '*' :: '*' :: rest =>
    if previous.any (· != '/') then .error (.partialSegment (position - 1))
    else
      match rest with
      | [] => .ok [.anySegments]
      | '/' :: behind => do
        return .anySegments :: (← read (position + 3) (some '/') behind)
      | _ :: _ => .error (.partialSegment (position + 2))
  | '*' :: rest => do return .anyText :: (← read (position + 1) (some '*') rest)
  | '?' :: rest => do return .anyCharacter :: (← read (position + 1) (some '?') rest)
  | '[' :: rest =>
    match found : class? rest with
    | none => .error (.openClass position)
    | some (token, behind) => do
      have := length_class?_lt found
      return token :: (← read (position + 1 + (rest.length - behind.length)) (some ']') behind)
  | c :: rest => do return .character c :: (← read (position + 1) (some c) rest)
termination_by characters.length

def parse (pattern : String) : Except PatternFailure (List Token) :=
  read 0 none pattern.toList

end FactoryProxy.Glob
