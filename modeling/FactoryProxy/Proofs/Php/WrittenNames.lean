import FactoryProxy.Php.Grammar.Name
import FactoryProxy.Proofs.Php.Gathering
import FactoryProxy.Proofs.Php.Reading
import FactoryProxy.Proofs.Text.Trimming

/-!
Contract: names as tokens, and how they are read.

A name is one segment after another with separators between them, and white space and comments
around each separator. It is read back as its exact text.

Owns: white space and comments between tokens, the tokens of a name, and the reading of a name in
front of anything that does not continue it.
-/

namespace FactoryProxy.Php

open Reader Grouped

/-! ## Tokens -/

/-- White space and comments only. -/
def IsQuiet (tokens : List Token) : Prop :=
  ∀ token ∈ tokens, token.kind = .blank ∨ token.kind = .comment

instance (tokens : List Token) : Decidable (IsQuiet tokens) :=
  inferInstanceAs (Decidable (∀ token ∈ tokens, _))

namespace Token

def backslash : Token := ⟨.symbol, "\\"⟩

def comma : Token := ⟨.symbol, ","⟩

/-- The token is a word that is read as the keyword, in any case. -/
def IsKeyword (text : String) (token : Token) : Prop :=
  token.kind = .word ∧ Text.fold token.text = text

end Token

/-- The word can stand in a name: it is not empty, and no separator is in it. -/
def Token.IsSegment (token : Token) : Prop :=
  token.kind = .word ∧ token.text ≠ "" ∧ ∀ c ∈ token.text.toList, Name.isSeparator c = false

instance (token : Token) : Decidable token.IsSegment :=
  decidable_of_iff (token.kind = .word ∧ token.text ≠ "" ∧
    token.text.toList.all (fun c => !Name.isSeparator c) = true) (by simp [Token.IsSegment])

theorem IsQuiet.noBracket {tokens : List Token} (quiet : IsQuiet tokens) :
    ∀ token ∈ tokens, token.isBracket = false := by
  intro token member
  unfold Token.isBracket
  rcases quiet token member with isKind | isKind <;> rw [isKind]

theorem noBracket_of_word {token : Token} (isWord : token.kind = .word) :
    token.isBracket = false := by
  unfold Token.isBracket
  rw [isWord]

theorem noBracket_of_trivia {token : Token} (isTrivia : token.isTrivia = true) :
    token.isBracket = false := by
  unfold Token.isTrivia at isTrivia
  unfold Token.isBracket
  cases isKind : token.kind <;> simp_all

theorem isGap_of_trivia {tokens : List Token} (isTrivia : ∀ token ∈ tokens, token.isTrivia = true)
    (line : Nat) : IsGap .wide (leaves line tokens) := by
  intro node member
  obtain ⟨place, token, inTokens, rfl⟩ := mem_leaves member
  exact isTrivia token inTokens

theorem IsQuiet.isGap {tokens : List Token} (quiet : IsQuiet tokens) (line : Nat) :
    IsGap .quiet (leaves line tokens) := by
  intro node member
  obtain ⟨place, token, inTokens, rfl⟩ := mem_leaves member
  rcases quiet token inTokens with isKind | isKind <;>
    simp [Gap.allows, Node.isTrivia, Token.isTrivia, Node.isOutside, Node.isKind, isKind]

theorem IsQuiet.isWideGap {tokens : List Token} (quiet : IsQuiet tokens) (line : Nat) :
    IsGap .wide (leaves line tokens) := by
  intro node member
  have allowed := quiet.isGap line node member
  simp only [Gap.allows, Bool.and_eq_true] at allowed
  exact allowed.1

/-- Every gap but the empty one may be white space and comments. -/
theorem IsQuiet.isGapOf {gap : Gap} {tokens : List Token} (isOpen : gap ≠ .nothing)
    (quiet : IsQuiet tokens) (line : Nat) : IsGap gap (leaves line tokens) := by
  cases gap with
  | nothing => exact absurd rfl isOpen
  | quiet => exact quiet.isGap line
  | wide => exact quiet.isWideGap line

theorem allows_leaf (gap : Gap) {token : Token} (notTrivia : token.isTrivia = false)
    (place : Nat) : gap.allows (.leaf place token) = false := by
  cases gap <;> simp [Gap.allows, Node.isTrivia, notTrivia]

/-- A token that is no trivia stands in front of the rest and does not pass the test. -/
theorem lacks_leaf {gap : Gap} {test : Node → Bool} {place : Nat} {token : Token}
    (notTrivia : token.isTrivia = false) (refused : test (.leaf place token) = false)
    (rest : List Node) : Lacks gap test (.leaf place token :: rest) :=
  lacks_cons (allows_leaf gap notTrivia place) refused rest

theorem isTrivia_of_word {token : Token} (isWord : token.kind = .word) :
    token.isTrivia = false := by
  simp [Token.isTrivia, isWord]

theorem word?_leaf {token : Token} (isWord : token.kind = .word) (line : Nat) :
    (Node.leaf line token).word? = some token.text := by
  simp [Node.word?, isWord]

theorem textOf_leaves (tokens : List Token) :
    Expression.textOf (tokens.map Expression.leaf) = Expression.tokensText tokens := by
  induction tokens with
  | nil => rfl
  | cons token rest inductionHypothesis =>
      unfold Expression.tokensText at inductionHypothesis ⊢
      rw [List.map_cons, List.map_cons, Text.concat_cons, Expression.textOf, inductionHypothesis]
      rfl

/-! ## Names -/

/-- Separators and the segments behind them. -/
inductive IsBelow : List Token → Prop where
  | nil : IsBelow []
  | cons {before behind rest : List Token} {word : Token} (quietBefore : IsQuiet before)
      (quietBehind : IsQuiet behind) (isSegment : word.IsSegment) (others : IsBelow rest) :
      IsBelow (before ++ .backslash :: (behind ++ [word]) ++ rest)

/-- A name that starts with a segment. -/
def IsLocalName (tokens : List Token) : Prop :=
  ∃ word rest, tokens = word :: rest ∧ word.IsSegment ∧ IsBelow rest

/-- A name, which may start with a separator. -/
def IsName (tokens : List Token) : Prop :=
  IsLocalName tokens ∨
    ∃ between below, tokens = .backslash :: (between ++ below) ∧ IsQuiet between ∧
      IsLocalName below

theorem IsBelow.noBracket {tokens : List Token} (isBelow : IsBelow tokens) :
    ∀ token ∈ tokens, token.isBracket = false := by
  induction isBelow with
  | nil => exact List.forall_mem_nil _
  | cons quietBefore quietBehind isSegment _ inductionHypothesis =>
      refine List.forall_mem_append.mpr ⟨List.forall_mem_append.mpr ?_, inductionHypothesis⟩
      refine ⟨quietBefore.noBracket, List.forall_mem_cons.mpr ⟨rfl, ?_⟩⟩
      exact List.forall_mem_append.mpr
        ⟨quietBehind.noBracket, List.forall_mem_singleton.mpr (noBracket_of_word isSegment.1)⟩

theorem IsLocalName.noBracket {tokens : List Token} (isName : IsLocalName tokens) :
    ∀ token ∈ tokens, token.isBracket = false := by
  obtain ⟨word, rest, rfl, isSegment, below⟩ := isName
  exact List.forall_mem_cons.mpr ⟨noBracket_of_word isSegment.1, below.noBracket⟩

theorem IsName.noBracket {tokens : List Token} (isName : IsName tokens) :
    ∀ token ∈ tokens, token.isBracket = false := by
  rcases isName with isLocal | ⟨between, below, rfl, quiet, isLocal⟩
  · exact isLocal.noBracket
  · exact List.forall_mem_cons.mpr
      ⟨rfl, List.forall_mem_append.mpr ⟨quiet.noBracket, isLocal.noBracket⟩⟩

/-- A name below segments continues them. -/
theorem IsBelow.append {tokens more : List Token} (isBelow : IsBelow tokens)
    (isName : IsLocalName more) : IsBelow (tokens ++ .backslash :: more) := by
  induction isBelow with
  | nil =>
      obtain ⟨word, rest, rfl, isSegment, isRest⟩ := isName
      exact .cons (List.forall_mem_nil _) (List.forall_mem_nil _) isSegment isRest
  | cons quietBefore quietBehind isSegment _ inductionHypothesis =>
      rw [List.append_assoc]
      exact .cons quietBefore quietBehind isSegment inductionHypothesis

theorem IsName.append {tokens more : List Token} (isName : IsName tokens)
    (isMore : IsLocalName more) : IsName (tokens ++ .backslash :: more) := by
  rcases isName with ⟨word, rest, rfl, isSegment, isBelow⟩ |
    ⟨between, below, rfl, quiet, word, rest, rfl, isSegment, isBelow⟩
  · exact .inl ⟨word, _, rfl, isSegment, isBelow.append isMore⟩
  · exact .inr ⟨between, word :: (rest ++ .backslash :: more), by simp, quiet, word, _, rfl,
      isSegment, isBelow.append isMore⟩

/-- A name ends with a segment. -/
theorem IsBelow.exists_last {tokens : List Token} (isBelow : IsBelow tokens)
    (isSome : tokens ≠ []) : ∃ before last, tokens = before ++ [last] ∧ last.IsSegment := by
  induction isBelow with
  | nil => exact absurd rfl isSome
  | @cons before behind rest word _ _ isSegment _ inductionHypothesis =>
      by_cases isEmpty : rest = []
      · exact ⟨before ++ .backslash :: behind, word, by simp [isEmpty], isSegment⟩
      · obtain ⟨more, last, rfl, isLast⟩ := inductionHypothesis isEmpty
        exact ⟨before ++ .backslash :: (behind ++ [word]) ++ more, last, by simp, isLast⟩

theorem IsLocalName.exists_last {tokens : List Token} (isName : IsLocalName tokens) :
    ∃ before last, tokens = before ++ [last] ∧ last.IsSegment := by
  obtain ⟨word, rest, rfl, isSegment, below⟩ := isName
  by_cases isEmpty : rest = []
  · exact ⟨[], word, by simp [isEmpty], isSegment⟩
  · obtain ⟨before, last, rfl, isLast⟩ := below.exists_last isEmpty
    exact ⟨word :: before, last, rfl, isLast⟩

theorem IsName.exists_last {tokens : List Token} (isName : IsName tokens) :
    ∃ before last, tokens = before ++ [last] ∧ last.IsSegment := by
  rcases isName with isLocal | ⟨between, below, rfl, -, isLocal⟩
  · exact isLocal.exists_last
  · obtain ⟨before, last, rfl, isLast⟩ := isLocal.exists_last
    exact ⟨.backslash :: (between ++ before), last, by simp, isLast⟩

open Expression (tokensText)

theorem tokensText_cons (token : Token) (rest : List Token) :
    tokensText (token :: rest) = token.text ++ tokensText rest :=
  Text.concat_cons _ _

theorem tokensText_append (tokens more : List Token) :
    tokensText (tokens ++ more) = tokensText tokens ++ tokensText more := by
  unfold tokensText
  rw [List.map_append, Text.concat_append]

theorem tokensText_singleton (token : Token) : tokensText [token] = token.text := rfl

/-- The text of a name does not end with a separator. -/
theorem IsName.getLast? {tokens : List Token} (isName : IsName tokens) :
    ∃ last, (tokensText tokens).toList.getLast? = some last ∧ Name.isSeparator last = false := by
  obtain ⟨before, word, rfl, -, isSome, isFree⟩ := isName.exists_last
  have isLong : word.text.toList ≠ [] := fun isEmpty => isSome (String.toList_eq_nil_iff.mp isEmpty)
  refine ⟨word.text.toList.getLast isLong, ?_, isFree _ (List.getLast_mem isLong)⟩
  rw [tokensText_append, tokensText_singleton, String.toList_append,
    List.getLast?_append, List.getLast?_eq_some_getLast isLong]
  rfl

/-- The text of a name that starts with a segment has no outer separators. -/
theorem IsLocalName.trimmed {tokens : List Token} (isName : IsLocalName tokens) :
    Text.Trimmed Name.isSeparator (tokensText tokens).toList := by
  obtain ⟨found, isLast, noSeparator⟩ := IsName.getLast? (.inl isName)
  refine ⟨fun first isFirst => ?_, fun last isEnd => ?_⟩
  · obtain ⟨word, rest, rfl, ⟨-, isSome, isFree⟩, -⟩ := isName
    rw [tokensText_cons, String.toList_append] at isFirst
    cases isText : word.text.toList with
    | nil => exact absurd (String.toList_eq_nil_iff.mp isText) isSome
    | cons c others =>
        rw [isText] at isFirst isFree
        rw [← Option.some.inj isFirst]
        exact isFree c List.mem_cons_self
  · rw [isLast] at isEnd
    rw [← Option.some.inj isEnd]
    exact noSeparator

/-! ## Reading -/

namespace Grammar

variable {gap : Gap} {tokens between : List Token} {rest : List Node} {line : Nat}

/-- A token is taken with the gap before it. -/
theorem takes_leaf {test : Node → Bool} {token : Token} (isGap : IsGap gap (leaves line between))
    (notAllowed : ∀ place, gap.allows (.leaf place token) = false)
    (passes : ∀ place, test (.leaf place token) = true) :
    Takes (node gap test) (leaves line (between ++ [token]) ++ rest) rest ()
      ((between ++ [token]).map Expression.leaf) := by
  rw [leaves_append, List.append_assoc, List.map_append, ← map_plain_leaves line between]
  exact takes_node isGap (notAllowed _) (passes _)

theorem takes_leafSymbol (isGap : IsGap gap (leaves line between)) {token : Token} {text : String}
    (isSymbol : token = ⟨.symbol, text⟩) :
    Takes (symbol gap text) (leaves line (between ++ [token]) ++ rest) rest ()
      ((between ++ [token]).map Expression.leaf) := by
  rw [isSymbol]
  exact takes_leaf isGap (allows_leaf gap rfl) (fun _ => by simp [Node.isSymbol])

theorem takes_leafKeywordIn {texts : List String} {token : Token}
    (isGap : IsGap gap (leaves line between)) (isWord : token.kind = .word)
    (isKeyword : Text.fold token.text ∈ texts) :
    Takes (keywordIn gap texts) (leaves line (between ++ [token]) ++ rest) rest ()
      ((between ++ [token]).map Expression.leaf) :=
  takes_leaf isGap (allows_leaf gap (isTrivia_of_word isWord)) (fun place => by
    simp [Node.isKeywordIn, Node.keyword?, word?_leaf isWord, isKeyword])

theorem takes_leafKeyword {text : String} {token : Token}
    (isGap : IsGap gap (leaves line between)) (isKeyword : token.IsKeyword text) :
    Takes (keyword gap text) (leaves line (between ++ [token]) ++ rest) rest ()
      ((between ++ [token]).map Expression.leaf) :=
  takes_leaf isGap (allows_leaf gap (isTrivia_of_word isKeyword.1)) (fun place => by
    simp [Node.isKeyword, Node.keyword?, word?_leaf isKeyword.1, isKeyword.2])

theorem takes_leafWord {token : Token} (isGap : IsGap gap (leaves line between))
    (isWord : token.kind = .word) :
    Takes (word gap) (leaves line (between ++ [token]) ++ rest) rest token.text
      ((between ++ [token]).map Expression.leaf) := by
  rw [leaves_append, List.append_assoc, List.map_append, ← map_plain_leaves line between]
  exact takes_word isGap (allows_leaf gap (isTrivia_of_word isWord) _) (word?_leaf isWord _)

/-- A separator and a segment. -/
theorem takes_segment {before behind : List Token} {word : Token} (isOpen : gap ≠ .nothing)
    (quietBefore : IsQuiet before) (quietBehind : IsQuiet behind) (isWord : word.kind = .word) :
    Takes (segment gap) (leaves line (before ++ .backslash :: (behind ++ [word])) ++ rest) rest
      () ((before ++ .backslash :: (behind ++ [word])).map Expression.leaf) := by
  rw [show before ++ Token.backslash :: (behind ++ [word]) =
    (before ++ [.backslash]) ++ (behind ++ [word]) by simp, List.map_append, leaves_append,
    List.append_assoc]
  refine (takes_leafSymbol (quietBefore.isGapOf isOpen _) rfl).bind ?_
  exact (takes_leafWord (quietBehind.isWideGap _) isWord).discard

theorem collects_segments (isOpen : gap ≠ .nothing) (isBelow : IsBelow tokens)
    (ends : Fails (segment gap) rest) :
    ∀ line, ∃ values, Collects (segment gap) (leaves line tokens ++ rest) rest values
      (tokens.map Expression.leaf) := by
  induction isBelow with
  | nil => exact fun _ => ⟨[], .nil ends⟩
  | cons quietBefore quietBehind isSegment _ inductionHypothesis =>
      intro line
      rw [leaves_append, List.append_assoc, List.map_append]
      obtain ⟨values, collected⟩ := inductionHypothesis _
      refine ⟨() :: values, .cons ?_ (takes_segment isOpen quietBefore quietBehind isSegment.1)
        collected⟩
      simp only [List.length_append, length_leaves, List.length_cons]
      omega

/-- A name from its first segment on. -/
theorem takes_localName (isOpen : gap ≠ .nothing) (isName : IsLocalName tokens)
    (ends : Fails (segment gap) rest) (isGap : IsGap .wide (leaves line between)) :
    Takes (do discard (word .wide); many (segment gap))
      (leaves line (between ++ tokens) ++ rest) rest ()
      ((between ++ tokens).map Expression.leaf) := by
  obtain ⟨word, below, rfl, isSegment, isBelow⟩ := isName
  obtain ⟨values, collected⟩ :=
    collects_segments isOpen isBelow ends (lineBehind line (between ++ [word]))
  rw [show between ++ word :: below = (between ++ [word]) ++ below by simp, List.map_append,
    leaves_append, List.append_assoc]
  exact (takes_leafWord isGap isSegment.1).discard.bind collected.many

/-- The head of a name is no trivia. -/
theorem head_of_isName (isName : IsName tokens) :
    ∃ first rest, tokens = first :: rest ∧ first.isTrivia = false ∧
      (first.kind = .word ∨ first = .backslash) := by
  rcases isName with ⟨word, rest, rfl, isSegment, -⟩ | ⟨between, below, rfl, -, -⟩
  · exact ⟨word, rest, rfl, isTrivia_of_word isSegment.1, .inl isSegment.1⟩
  · exact ⟨.backslash, _, rfl, rfl, .inr rfl⟩

/-- The segments of a name, and the separator in front of them. -/
theorem takes_segments (isOpen : gap ≠ .nothing) (isName : IsName tokens)
    (ends : Fails (segment gap) rest) (line : Nat) :
    Takes (do
        discard (maybe (symbol .nothing "\\"))
        discard (word .wide)
        many (segment gap))
      (leaves line tokens ++ rest) rest () (tokens.map Expression.leaf) := by
  rcases isName with isLocal | ⟨between, below, rfl, quiet, isLocal⟩
  · have noGap : IsGap .wide (leaves line []) := isGap_nil .wide
    have noSeparator : Fails (symbol .nothing "\\") (leaves line tokens ++ rest) := by
      obtain ⟨word, below, rfl, isSegment, -⟩ := isLocal
      have noSymbol : (Node.leaf line word).isSymbol "\\" = false := by
        simp [Node.isSymbol, isSegment.1]
      exact fails_node (lacks_leaf (isTrivia_of_word isSegment.1) noSymbol _)
    have segments := takes_localName isOpen isLocal ends noGap
    exact noSeparator.maybe.discard.bind segments
  · have noGap : IsGap .nothing (leaves line []) := isGap_nil .nothing
    rw [show Token.backslash :: (between ++ below) = ([] ++ [.backslash]) ++ (between ++ below)
      by simp, leaves_append, List.append_assoc, List.map_append]
    refine (takes_leafSymbol noGap rfl).maybe.discard.bind ?_
    exact takes_localName isOpen isLocal ends (quiet.isWideGap _)

/-- What stands in front of a token is passed over. -/
theorem takes_skipLeaves {token : Token} (isGap : IsGap .wide (leaves line between))
    (notTrivia : token.isTrivia = false) (more : List Token) (rest : List Node) :
    Takes (skip .wide) (leaves line (between ++ token :: more) ++ rest)
      (leaves (lineBehind line between) (token :: more) ++ rest) ()
      (between.map Expression.leaf) := by
  rw [leaves_append, List.append_assoc, ← map_plain_leaves line]
  refine takes_skip isGap ?_
  rintro node isFirst
  rw [← Option.some.inj isFirst]
  exact allows_leaf .wide notTrivia _

/-- A name is read as its exact text. -/
theorem takes_name (isOpen : gap ≠ .nothing) (isName : IsName tokens)
    (ends : Fails (segment gap) rest) (quiet : IsQuiet between) :
    Takes (name gap) (leaves line (between ++ tokens) ++ rest) rest
      (Expression.tokensText tokens)
      (between.map Expression.leaf ++ [.name (Expression.tokensText tokens)]) := by
  have skipped : Takes (skip .wide) (leaves line (between ++ tokens) ++ rest)
      (leaves (lineBehind line between) tokens ++ rest) () (between.map Expression.leaf) := by
    obtain ⟨first, others, rfl, notTrivia, -⟩ := head_of_isName isName
    exact takes_skipLeaves (quiet.isWideGap line) notTrivia others rest
  have captured := (takes_segments isOpen isName ends (lineBehind line between)).capture
  rw [← textOf_leaves]
  exact skipped.bind (captured.bind ((takes_push _ rest).returns (takes_pure _ rest)))

/-- No name starts in front of anything else than a word or a separator. -/
theorem fails_name {nodes : List Node} (gap : Gap)
    (lacks : Lacks .wide (fun node => node.isWord || node.isSymbol "\\") nodes) :
    Fails (name gap) nodes := by
  obtain ⟨between, rest, rfl, isGap, refused⟩ := lacks
  refine Takes.bind_fails (takes_skip isGap (fun first isFirst => (refused first isFirst).1)) ?_
  have noSeparator : Fails (symbol .nothing "\\") rest :=
    fails_node ⟨[], rest, rfl, isGap_nil _, fun first isFirst =>
      ⟨rfl, (Bool.or_eq_false_iff.mp (refused first isFirst).2).2⟩⟩
  have noWord : Fails (word .wide) rest :=
    fails_word ⟨[], rest, rfl, isGap_nil _, fun first isFirst =>
      ⟨(refused first isFirst).1, (Bool.or_eq_false_iff.mp (refused first isFirst).2).1⟩⟩
  exact (noSeparator.maybe.discard.bind_fails (noWord.discard.bind _)).capture.bind _

end Grammar

end FactoryProxy.Php
