import FactoryProxy.Glob.Pattern

/-!
Contract: texts that a pattern matches as a whole.

Owns: the match of a token list. `*` and `?` match slashes like any other
character; `**` matches up to and including any slash, nothing, or all that is
left. Each wildcard is settled by the first choice that the tokens behind it do not
refuse, so a match takes no more than the product of both lengths.
-/

namespace FactoryProxy.Glob

namespace CharacterRange

def contains (range : CharacterRange) (c : Char) : Bool :=
  range.first ≤ c && c ≤ range.last

end CharacterRange

def Token.fits (c : Char) : Token → Bool
  | character expected => c == expected
  | anyCharacter => true
  | oneOf ranges => ranges.any (fun range => range.contains c)
  | noneOf ranges => !ranges.any (fun range => range.contains c)
  | anyText | anySegments => false

def behindSlash : List Char → Option (List Char)
  | [] => none
  | c :: rest => if c == '/' then some rest else behindSlash rest

theorem length_behindSlash_lt {text rest : List Char} (found : behindSlash text = some rest) :
    rest.length < text.length := by
  induction text with
  | nil => simp [behindSlash] at found
  | cons c tail inductionHypothesis =>
      unfold behindSlash at found
      split at found
      · simp only [Option.some.injEq] at found
        simp [found]
      · have := inductionHypothesis found
        simp only [List.length_cons]
        omega

/-- What comes of a match. A text that ends too early is told apart, because then no
wildcard before that place can help by taking more of it. -/
inductive Outcome where
  | matched
  | mismatch
  | exhausted
deriving DecidableEq, Repr

/-- The match of the tokens with the whole text. A wildcard takes more of the text
only as long as the tokens behind it meet a character that does not fit. -/
def outcome (tokens : List Token) (text : List Char) : Outcome :=
  match tokens with
  | [] => if text.isEmpty then .matched else .mismatch
  | .anyText :: rest =>
    match outcome rest text with
    | .mismatch =>
      match text with
      | [] => .exhausted
      | _ :: more => outcome (.anyText :: rest) more
    | settled => settled
  | .anySegments :: rest =>
    match outcome rest text with
    | .mismatch =>
      match found : behindSlash text with
      | some more =>
        have := length_behindSlash_lt found
        outcome (.anySegments :: rest) more
      | none => outcome rest []
    | settled => settled
  | token :: rest =>
    match text with
    | [] => .exhausted
    | c :: more => if token.fits c then outcome rest more else .mismatch
termination_by (tokens.length, text.length)

def matchesText (tokens : List Token) (text : List Char) : Bool :=
  outcome tokens text == .matched

end FactoryProxy.Glob
