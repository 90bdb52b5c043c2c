import FactoryProxy.Php.Grammar.Parameter
import FactoryProxy.Proofs.Php.NamePlaces
import FactoryProxy.Proofs.Php.WrittenImports

/-!
Contract: types and parameters as tokens, and how they are read.

A type is one name after another with bars between them, and a question mark may stand before
it. It is read back as its exact text. A parameter is its type, the marks for references and
variadic parameters, and its name behind a dollar sign.

Owns: the tokens of types without parentheses, of parameters without default values and of lists
of them, and their reading.
Does not own: attributes, promoted parameters and default values.
-/

namespace FactoryProxy.Php

open Reader Grouped
open Expression (tokensText textOf_append)

namespace Token

def bar : Token := ⟨.symbol, "|"⟩

def questionMark : Token := ⟨.symbol, "?"⟩

def ampersand : Token := ⟨.symbol, "&"⟩

def ellipsis : Token := ⟨.symbol, "..."⟩

def dollar : Token := ⟨.symbol, "$"⟩

end Token

/-! ## Types -/

/-- Names with bars between them. -/
inductive IsUnion : List Token → Prop where
  | name {tokens : List Token} (isName : IsName tokens) : IsUnion tokens
  | more {tokens before behind rest : List Token} (isName : IsName tokens)
      (quietBefore : IsQuiet before) (quietBehind : IsQuiet behind) (others : IsUnion rest) :
      IsUnion (tokens ++ (before ++ .bar :: (behind ++ rest)))

/-- A union, or a nullable one. -/
def IsType (tokens : List Token) : Prop :=
  IsUnion tokens ∨
    ∃ between union, tokens = .questionMark :: (between ++ union) ∧ IsQuiet between ∧
      IsUnion union

theorem IsUnion.head {tokens : List Token} (isUnion : IsUnion tokens) :
    ∃ first rest, tokens = first :: rest ∧ first.isTrivia = false ∧
      (first.kind = .word ∨ first = .backslash) := by
  cases isUnion with
  | name isName => exact Grammar.head_of_isName isName
  | more isName _ _ _ =>
      obtain ⟨first, rest, rfl, isHead⟩ := Grammar.head_of_isName isName
      exact ⟨first, _, rfl, isHead⟩

theorem IsType.head {tokens : List Token} (isType : IsType tokens) :
    ∃ first rest, tokens = first :: rest ∧ first.isTrivia = false ∧
      (first.kind = .word ∨ first ∈ [Token.backslash, .questionMark]) := by
  rcases isType with isUnion | ⟨_, _, rfl, -, -⟩
  · obtain ⟨first, rest, isFirst, notTrivia, isWord | rfl⟩ := isUnion.head
    · exact ⟨first, rest, isFirst, notTrivia, .inl isWord⟩
    · exact ⟨_, rest, isFirst, notTrivia, .inr (by decide)⟩
  · exact ⟨_, _, rfl, rfl, .inr (by decide)⟩

namespace Grammar

variable {gap : Gap} {tokens between lead : List Token} {rest : List Node} {line : Nat}

/-- In front of such a token stands the gap, and the token does not pass the test. -/
theorem lacks_leaves {test : Node → Bool} {token : Token} (isGap : IsGap gap (leaves line between))
    (notTrivia : token.isTrivia = false) (refused : ∀ place, test (.leaf place token) = false)
    (more : List Token) (rest : List Node) :
    Lacks gap test (leaves line (between ++ token :: more) ++ rest) := by
  rw [leaves_append, List.append_assoc]
  exact Lacks.behind isGap (lacks_leaf notTrivia (refused _) _)

/-- A further name of a type. -/
def furtherAtom (gap : Gap) : Reader Unit := do
  symbolIn gap ["|", "&"]
  typeAtom gap

/-- What follows continues neither the last name of a type nor the type. -/
structure EndsType (gap : Gap) (rest : List Node) : Prop where
  noSegment : Fails (segment gap) rest
  noFurther : Fails (furtherAtom gap) rest

theorem takes_typeAtom (isOpen : gap ≠ .nothing) (isName : IsName tokens)
    (ends : Fails (segment gap) rest) (quiet : IsQuiet between) :
    Takes (typeAtom gap) (leaves line (between ++ tokens) ++ rest) rest ()
      (between.map Expression.leaf ++ [.name (tokensText tokens)]) :=
  (takes_name isOpen isName ends quiet).discard.orElse _

theorem textOf_name (between tokens : List Token) :
    Expression.textOf (between.map Expression.leaf ++ [.name (tokensText tokens)]) =
      tokensText (between ++ tokens) := by
  rw [textOf_append, textOf_leaves, tokensText_append]
  simp [Expression.textOf, Expression.text]

/-- A union is read as its first name and the others behind it. -/
theorem reads_union (isOpen : gap ≠ .nothing) (isUnion : IsUnion tokens)
    (ends : EndsType gap rest) :
    ∀ (line : Nat) (between : List Token), IsQuiet between → ∃ middle first others values,
      Takes (typeAtom gap) (leaves line (between ++ tokens) ++ rest) middle () first ∧
      middle.length ≤ (leaves line (between ++ tokens) ++ rest).length ∧
      Collects (furtherAtom gap) middle rest values others ∧
      Expression.textOf (first ++ others) = tokensText (between ++ tokens) := by
  induction isUnion with
  | @name tokens isName =>
      intro line between quiet
      refine ⟨rest, _, [], [], takes_typeAtom isOpen isName ends.noSegment quiet, ?_,
        .nil ends.noFurther, ?_⟩
      · simp
      · rw [List.append_nil, textOf_name]
  | @more tokens before behind union isName quietBefore quietBehind _ inductionHypothesis =>
      intro line between quiet
      have regrouped : between ++ (tokens ++ (before ++ Token.bar :: (behind ++ union))) =
          (between ++ tokens) ++ ((before ++ [.bar]) ++ (behind ++ union)) := by simp
      rw [regrouped, leaves_append, leaves_append _ (before ++ [Token.bar]), List.append_assoc,
        List.append_assoc]
      obtain ⟨middle, first, others, values, taken, isShort, collected, isText⟩ :=
        inductionHypothesis
          (lineBehind (lineBehind line (between ++ tokens)) (before ++ [.bar])) behind quietBehind
      have nameEnds : ∀ place more, Fails (segment gap)
          (leaves place (before ++ [Token.bar]) ++ more) := by
        intro place more
        refine Fails.bind (fails_node ?_) _
        exact lacks_leaves (quietBefore.isGapOf isOpen place) rfl (fun _ => rfl) [] more
      have bar : ∀ place more, Takes (symbolIn gap ["|", "&"])
          (leaves place (before ++ [Token.bar]) ++ more) more ()
          ((before ++ [Token.bar]).map Expression.leaf) := fun place more =>
        takes_leaf (quietBefore.isGapOf isOpen place) (allows_leaf gap rfl)
          (fun _ => by simp [Node.symbol?, Token.bar])
      refine ⟨_, _, _, () :: values, takes_typeAtom isOpen isName (nameEnds _ _) quiet, ?_,
        .cons ?_ ((bar _ _).bind taken) collected, ?_⟩
      · simp only [List.length_append, length_leaves]
        omega
      · simp only [List.length_append, length_leaves, List.length_cons, List.length_nil]
          at isShort ⊢
        omega
      · rw [textOf_append, textOf_name, textOf_append, textOf_append, textOf_leaves,
          String.append_assoc, ← textOf_append, isText]
        simp only [tokensText_append]

/-- The names of a union and what joins them. -/
def typeNames (gap : Gap) : Reader Unit := do
  typeAtom gap
  many (furtherAtom gap)

theorem takes_typeNames (isOpen : gap ≠ .nothing) (isUnion : IsUnion tokens)
    (ends : EndsType gap rest) (quiet : IsQuiet between) (line : Nat) :
    ∃ added, Takes (typeNames gap) (leaves line (between ++ tokens) ++ rest) rest () added ∧
      Expression.textOf added = tokensText (between ++ tokens) := by
  obtain ⟨middle, first, others, values, taken, -, collected, isText⟩ :=
    reads_union isOpen isUnion ends line between quiet
  exact ⟨_, taken.bind collected.many, isText⟩

/-- A type is read as its exact text. -/
theorem takes_typeHint (isOpen : gap ≠ .nothing) (isType : IsType tokens)
    (ends : EndsType gap rest) (quiet : IsQuiet between) (line : Nat) :
    ∃ added, Takes (typeHint gap) (leaves line (between ++ tokens) ++ rest) rest
      (tokensText tokens) added := by
  have skipped : Takes (skip .wide) (leaves line (between ++ tokens) ++ rest)
      (leaves (lineBehind line between) tokens ++ rest) () (between.map Expression.leaf) := by
    obtain ⟨first, others, rfl, notTrivia, -⟩ := isType.head
    exact takes_skipLeaves (quiet.isWideGap line) notTrivia others rest
  suffices inside : ∃ added, Takes (do
      discard (maybe (symbol .nothing "?"))
      typeNames gap) (leaves (lineBehind line between) tokens ++ rest) rest () added ∧
      Expression.textOf added = tokensText tokens by
    obtain ⟨added, taken, isText⟩ := inside
    rw [← isText]
    exact ⟨_, skipped.bind taken.textOf⟩
  rcases isType with isUnion | ⟨gapTokens, union, rfl, quietGap, isUnion⟩
  · have noMark : Fails (symbol .nothing "?")
        (leaves (lineBehind line between) tokens ++ rest) := by
      obtain ⟨first, others, rfl, notTrivia, isHead⟩ := isUnion.head
      refine fails_node (lacks_leaf notTrivia ?_ _)
      rcases isHead with isWord | rfl
      · simp [Node.isSymbol, isWord]
      · rfl
    obtain ⟨added, taken, isText⟩ :=
      takes_typeNames isOpen isUnion ends (List.forall_mem_nil _) (lineBehind line between)
    exact ⟨_, noMark.maybe.discard.bind taken, isText⟩
  · rw [show Token.questionMark :: (gapTokens ++ union) =
      ([] ++ [.questionMark]) ++ (gapTokens ++ union) by simp, leaves_append, List.append_assoc]
    obtain ⟨added, taken, isText⟩ := takes_typeNames isOpen isUnion ends quietGap
      (lineBehind (lineBehind line between) ([] ++ [.questionMark]))
    have noGap : IsGap .nothing (leaves (lineBehind line between) []) := isGap_nil .nothing
    refine ⟨_, (takes_leafSymbol noGap rfl).maybe.discard.bind taken, ?_⟩
    rw [textOf_append, isText, textOf_leaves, ← tokensText_append]
    rfl

end Grammar

/-! ## Parameters -/

/-- The token, or nothing. -/
def ifPresent (present : Bool) (token : Token) : List Token :=
  if present then [token] else []

/-- A parameter without a default value: its type, its marks and its name. -/
structure WrittenParameter where
  hint : Option (List Token)
  byReference : Bool
  variadic : Bool
  name : String

namespace WrittenParameter

/-- What stands behind the mark for references. -/
def markedTokens (written : WrittenParameter) : List Token :=
  ifPresent written.variadic .ellipsis ++ [.dollar, ⟨.word, written.name⟩]

/-- What stands behind the type. -/
def namedTokens (written : WrittenParameter) : List Token :=
  ifPresent written.byReference .ampersand ++ written.markedTokens

def tokens (written : WrittenParameter) : List Token :=
  match written.hint with
  | none => written.namedTokens
  | some hint => hint ++ (.space :: written.namedTokens)

/-- The parameter that is read. Its name has no marks and no white space in front. -/
def read (written : WrittenParameter) : ParameterSyntax where
  name := Text.trimStart Grammar.isNameMark ("$" ++ written.name)
  typeHint := written.hint.map tokensText
  defaultValue := none
  byReference := written.byReference
  variadic := written.variadic

/-- The type is one, and does not start with the word for a visibility. -/
def Valid (written : WrittenParameter) : Prop :=
  ∀ hint, written.hint = some hint → IsType hint ∧
    ∀ first, hint.head? = some first → Text.fold first.text ∉ Grammar.visibilities

end WrittenParameter

namespace Grammar

variable {tokens lead : List Token} {rest : List Node} {line : Nat} {written : WrittenParameter}

/-- A mark is taken if it is there, and then no gap is left before what follows. -/
theorem takes_mark {text : String} (present : Bool) (quiet : IsQuiet lead) (line : Nat)
    (lacks : ∀ place, Lacks .wide (Node.isSymbol text) (leaves place (lead ++ tokens) ++ rest)) :
    ∃ place gap added, IsQuiet gap ∧ Takes (maybe (symbol .wide text))
      (leaves line (lead ++ (ifPresent present ⟨.symbol, text⟩ ++ tokens)) ++ rest)
      (leaves place (gap ++ tokens) ++ rest) present added := by
  cases present with
  | false => exact ⟨line, lead, [], quiet, (fails_node (lacks line)).maybe⟩
  | true =>
      rw [show lead ++ (ifPresent true ⟨.symbol, text⟩ ++ tokens) =
        (lead ++ [⟨.symbol, text⟩]) ++ ([] ++ tokens) by simp [ifPresent], leaves_append,
        List.append_assoc]
      have taken : Takes (symbol .wide text) (leaves line (lead ++ [⟨.symbol, text⟩]) ++
          (leaves (lineBehind line (lead ++ [⟨.symbol, text⟩])) ([] ++ tokens) ++ rest)) _ () _ :=
        takes_leafSymbol (quiet.isWideGap line) rfl
      exact ⟨_, [], _, List.forall_mem_nil _, taken.maybe⟩

theorem takes_variableName (name : String) (line : Nat) (rest : List Node) :
    Takes variableName (leaves line [.dollar, ⟨.word, name⟩] ++ rest) rest ()
      ([.dollar, ⟨.word, name⟩].map Expression.leaf) := by
  have noGap : ∀ place, IsGap .wide (leaves place []) := fun _ => isGap_nil .wide
  have noMore : Fails (symbol .wide "$") (leaves (lineBehind line [.dollar]) [⟨.word, name⟩] ++
      rest) := fails_node (lacks_leaf rfl rfl rest)
  have split : [Token.dollar, ⟨.word, name⟩] =
      ([] ++ [Token.dollar]) ++ ([] ++ [⟨.word, name⟩]) := rfl
  rw [split, leaves_append, List.append_assoc, List.map_append]
  refine (takes_leafSymbol (noGap line) rfl).bind ?_
  have taken : ∀ place, Takes (word .wide) (leaves place ([] ++ [⟨.word, name⟩]) ++ rest) rest name
      [.leaf ⟨.word, name⟩] := fun place => takes_leafWord (noGap place) rfl
  exact (Collects.nil noMore).many.bind ((taken _).discard.orElse _)

/-- A name starts with its mark or with the dollar sign. -/
theorem head_markedTokens (written : WrittenParameter) :
    ∃ first more, written.markedTokens = first :: more ∧ first ∈ [Token.ellipsis, .dollar] := by
  unfold WrittenParameter.markedTokens ifPresent
  cases written.variadic with
  | true => exact ⟨_, _, rfl, by decide⟩
  | false => exact ⟨_, _, rfl, by decide⟩

theorem head_namedTokens (written : WrittenParameter) :
    ∃ first more, written.namedTokens = first :: more ∧
      first ∈ [Token.ampersand, .ellipsis, .dollar] := by
  unfold WrittenParameter.namedTokens ifPresent
  cases written.byReference with
  | true => exact ⟨_, _, rfl, by decide⟩
  | false =>
      obtain ⟨first, more, isMarked, member⟩ := head_markedTokens written
      exact ⟨first, more, isMarked, List.mem_cons_of_mem _ member⟩

theorem lacks_marked {test : Node → Bool} (written : WrittenParameter) (quiet : IsQuiet lead)
    (line : Nat) (rest : List Node)
    (refused : ∀ place, ∀ first ∈ [Token.ellipsis, .dollar], test (.leaf place first) = false) :
    Lacks .wide test (leaves line (lead ++ written.markedTokens) ++ rest) := by
  obtain ⟨first, more, isMarked, member⟩ := head_markedTokens written
  have notTrivia : ∀ first ∈ [Token.ellipsis, .dollar], first.isTrivia = false := by decide
  rw [isMarked]
  exact lacks_leaves (quiet.isWideGap line) (notTrivia first member)
    (fun place => refused place first member) more rest

theorem lacks_named {test : Node → Bool} (written : WrittenParameter) (quiet : IsQuiet lead)
    (line : Nat) (rest : List Node)
    (refused : ∀ place, ∀ first ∈ [Token.ampersand, .ellipsis, .dollar],
      test (.leaf place first) = false) :
    Lacks .wide test (leaves line (lead ++ written.namedTokens) ++ rest) := by
  obtain ⟨first, more, isNamed, member⟩ := head_namedTokens written
  have notTrivia : ∀ first ∈ [Token.ampersand, .ellipsis, .dollar], first.isTrivia = false := by
    decide
  rw [isNamed]
  exact lacks_leaves (quiet.isWideGap line) (notTrivia first member)
    (fun place => refused place first member) more rest

/-- The marks and the name of a parameter. -/
theorem takes_named (written : WrittenParameter) (quiet : IsQuiet lead) (line : Nat)
    (rest : List Node) :
    ∃ added, Takes named (leaves line (lead ++ written.namedTokens) ++ rest) rest
      ⟨"$" ++ written.name, written.byReference, written.variadic⟩ added := by
  have lacksAmpersand : ∀ place, Lacks .wide (Node.isSymbol "&")
      (leaves place (lead ++ written.markedTokens) ++ rest) := fun place =>
    lacks_marked written quiet place rest
      (fun _ => by simp [Node.isSymbol, Token.ellipsis, Token.dollar])
  obtain ⟨first, gap, ofReference, quietGap, reference⟩ :=
    takes_mark written.byReference quiet line lacksAmpersand
  have lacksEllipsis : ∀ place, Lacks .wide (Node.isSymbol "...")
      (leaves place (gap ++ [.dollar, ⟨.word, written.name⟩]) ++ rest) := fun place =>
    lacks_leaves (quietGap.isWideGap place) rfl (fun _ => rfl) _ rest
  obtain ⟨second, further, ofVariadic, quietFurther, variadic⟩ :=
    takes_mark written.variadic quietGap first lacksEllipsis
  have skipped : Takes (skip .wide)
      (leaves second (further ++ [.dollar, ⟨.word, written.name⟩]) ++ rest)
      (leaves (lineBehind second further) [.dollar, ⟨.word, written.name⟩] ++ rest) ()
      (further.map Expression.leaf) :=
    takes_skipLeaves (quietFurther.isWideGap second) rfl _ rest
  have isText : Expression.textOf ([Token.dollar, ⟨.word, written.name⟩].map Expression.leaf) =
      "$" ++ written.name := textOf_leaves _
  have nameTaken := (takes_variableName written.name (lineBehind second further) rest).textOf
  rw [isText] at nameTaken
  exact ⟨_, reference.bind (variadic.bind (skipped.bind
    (nameTaken.returns (takes_pure _ rest))))⟩

/-- No type starts in front of anything else than a word, a separator or parentheses. -/
theorem fails_typeAtom {nodes : List Node} (gap : Gap)
    (noName : Lacks .wide (fun node => node.isWord || node.isSymbol "\\") nodes)
    (noGroup : Lacks .wide (Node.isGroup .round) nodes) : Fails (typeAtom gap) nodes :=
  (fails_name gap noName).discard.orElse (fails_group noGroup).discard

/-- An ampersand in front of the name is no part of the type. -/
theorem endsType_named (written : WrittenParameter) (quiet : IsQuiet lead) (line : Nat)
    (rest : List Node) :
    EndsType .wide (leaves line (lead ++ written.namedTokens) ++ rest) := by
  refine ⟨(fails_node (lacks_named written quiet line rest ?_)).bind _, ?_⟩
  · simp [Node.isSymbol, Token.ampersand, Token.ellipsis, Token.dollar]
  have noGap : IsQuiet [] := List.forall_mem_nil _
  have noType : ∀ place, Fails (typeAtom .wide)
      (leaves place ([] ++ written.markedTokens) ++ rest) := by
    refine fun place => fails_typeAtom .wide (lacks_marked written noGap place rest ?_)
      (lacks_marked written noGap place rest (fun _ _ _ => rfl))
    simp [Node.isSymbol, Node.isWord, Node.word?, Token.ellipsis, Token.dollar]
  cases isReference : written.byReference with
  | true =>
      have isNamed : lead ++ written.namedTokens =
          (lead ++ [.ampersand]) ++ ([] ++ written.markedTokens) := by
        simp [WrittenParameter.namedTokens, isReference, ifPresent]
      rw [isNamed, leaves_append, List.append_assoc]
      have isJoint : ∀ place, (Node.leaf place .ampersand).symbol?.any ["|", "&"].contains := by
        simp [Node.symbol?, Token.ampersand]
      exact (takes_leaf (quiet.isWideGap line) (allows_leaf .wide rfl) isJoint).bind_fails
        (noType _)
  | false =>
      have isNamed : written.namedTokens = written.markedTokens := by
        simp [WrittenParameter.namedTokens, isReference, ifPresent]
      rw [isNamed]
      refine (fails_node (lacks_marked written quiet line rest ?_)).bind _
      simp [Node.symbol?, Token.ellipsis, Token.dollar]

/-- The token behind the gap is seen. -/
theorem takes_seesLeaf {gap : Gap} {test : Node → Bool} {token : Token} {between : List Token}
    (isGap : IsGap gap (leaves line between)) (notTrivia : token.isTrivia = false)
    (passes : ∀ place, test (.leaf place token) = true) (more : List Token) (rest : List Node) :
    Takes (sees gap test) (leaves line (between ++ token :: more) ++ rest)
      (leaves line (between ++ token :: more) ++ rest) true [] := by
  rw [leaves_append, List.append_assoc]
  exact takes_sees isGap (allows_leaf gap notTrivia _) (passes _)

/-- The type in front of the name, if there is one. -/
theorem takes_hintIfAny (valid : written.Valid) (quiet : IsQuiet lead) (line : Nat)
    (rest : List Node) :
    ∃ place gap added, IsQuiet gap ∧ Takes hintIfAny (leaves line (lead ++ written.tokens) ++ rest)
      (leaves place (gap ++ written.namedTokens) ++ rest) (written.hint.map tokensText) added := by
  cases isHint : written.hint with
  | none =>
      have isTokens : written.tokens = written.namedTokens := by
        simp [WrittenParameter.tokens, isHint]
      obtain ⟨first, more, isNamed, member⟩ := head_namedTokens written
      have isHead : first.isTrivia = false ∧ ∀ place, (Node.leaf place first).symbol?.any
          ["&", "...", "$"].contains = true := by
        simp only [List.mem_cons, List.not_mem_nil, or_false] at member
        rcases member with rfl | rfl | rfl <;> exact ⟨rfl, fun _ => rfl⟩
      have seen : Takes (sees .wide (fun node => node.symbol?.any ["&", "...", "$"].contains))
          (leaves line (lead ++ first :: more) ++ rest) _ true [] :=
        takes_seesLeaf (quiet.isWideGap line) isHead.1 isHead.2 more rest
      rw [isTokens]
      rw [← isNamed] at seen
      exact ⟨line, lead, _, quiet, seen.bind (takes_pure none _)⟩
  | some hint =>
      obtain ⟨isType, -⟩ := valid hint isHint
      have isTokens : lead ++ written.tokens =
          (lead ++ hint) ++ ([Token.space] ++ written.namedTokens) := by
        simp [WrittenParameter.tokens, isHint]
      have noMark : Lacks .wide (fun node => node.symbol?.any ["&", "...", "$"].contains)
          (leaves line (lead ++ hint) ++ (leaves (lineBehind line (lead ++ hint))
            ([Token.space] ++ written.namedTokens) ++ rest)) := by
        obtain ⟨first, more, rfl, notTrivia, isHead⟩ := isType.head
        refine lacks_leaves (quiet.isWideGap line) notTrivia (fun place => ?_) more _
        rcases isHead with isWord | isMark
        · simp [Node.symbol?, isWord]
        · simp only [List.mem_cons, List.not_mem_nil, or_false] at isMark
          rcases isMark with rfl | rfl <;> rfl
      have quietBlank : IsQuiet [Token.space] := by decide
      obtain ⟨added, taken⟩ := takes_typeHint (by decide) isType
        (endsType_named written quietBlank (lineBehind line (lead ++ hint)) rest) quiet line
      rw [isTokens, leaves_append, List.append_assoc]
      exact ⟨_, _, _, quietBlank, noMark.sees.bind (taken.returns (takes_pure _ _))⟩

/-- What no attribute and no visibility starts with. -/
theorem head_tokens (valid : written.Valid) :
    ∃ first more, written.tokens = first :: more ∧ first.isTrivia = false ∧
      ∀ place, (Node.leaf place first).isKeywordIn visibilities = false := by
  cases isHint : written.hint with
  | none =>
      obtain ⟨first, more, isNamed, member⟩ := head_namedTokens written
      refine ⟨first, more, by simp [WrittenParameter.tokens, isHint, isNamed], ?_⟩
      simp only [List.mem_cons, List.not_mem_nil, or_false] at member
      rcases member with rfl | rfl | rfl <;> exact ⟨rfl, fun _ => rfl⟩
  | some hint =>
      obtain ⟨isType, noVisibility⟩ := valid hint isHint
      obtain ⟨first, more, rfl, notTrivia, isHead⟩ := isType.head
      refine ⟨first, more ++ .space :: written.namedTokens,
        by simp [WrittenParameter.tokens, isHint], notTrivia, fun place => ?_⟩
      rcases isHead with isWord | isMark
      · simpa [Node.isKeywordIn, Node.keyword?, word?_leaf isWord] using noVisibility first rfl
      · simp only [List.mem_cons, List.not_mem_nil, or_false] at isMark
        rcases isMark with rfl | rfl <;> rfl

/-- A parameter is read as it is written. -/
theorem takes_parameter (valid : written.Valid) (quiet : IsQuiet lead)
    (noDefault : Lacks .wide (Node.isSymbol "=") rest) (line : Nat) :
    ∃ added, Takes parameter (leaves line (lead ++ written.tokens) ++ rest) rest written.read
      added := by
  obtain ⟨first, more, isTokens, notTrivia, noVisibility⟩ := head_tokens valid
  have lacksHead : ∀ test : Node → Bool, (∀ place, test (.leaf place first) = false) →
      Lacks .wide test (leaves line (lead ++ written.tokens) ++ rest) := by
    intro test refused
    rw [isTokens]
    exact lacks_leaves (quiet.isWideGap line) notTrivia refused more rest
  have noAttribute : Fails (items .wide .attribute)
      (leaves line (lead ++ written.tokens) ++ rest) :=
    (fails_group (lacksHead _ (fun _ => rfl))).discard
  have notPromoted : Fails (do visibility; discard (maybe (keyword .wide "readonly")))
      (leaves line (lead ++ written.tokens) ++ rest) :=
    ((fails_node (lacksHead _ noVisibility)).bind _).bind _
  obtain ⟨place, gap, ofHint, quietGap, hint⟩ := takes_hintIfAny valid quiet line rest
  obtain ⟨ofName, name⟩ := takes_named written quietGap place rest
  have noValue : Fails defaultValue rest := (fails_node noDefault).bind _
  have value : Takes ((return some (← defaultValue)) <|> return none) rest rest none [] :=
    (noValue.bind _).orElse_takes (takes_pure none rest)
  exact ⟨_, (Collects.nil noAttribute).many.bind (notPromoted.maybe.bind (hint.bind
    (name.bind (value.bind (takes_pure _ rest)))))⟩

end Grammar

/-! ## Lists of parameters -/

namespace WrittenParameter

/-- Parameters with a comma and a space between neighbours. -/
def listTokens : List WrittenParameter → List Token
  | [] => []
  | [last] => last.tokens
  | written :: next :: rest => written.tokens ++ .comma :: .space :: listTokens (next :: rest)

end WrittenParameter

namespace Grammar

variable {lead : List Token} {list : List WrittenParameter}

/-- A parameter and the comma behind it. -/
def listedParameter : Reader ParameterSyntax := do
  let found ← parameter
  discard (maybe (symbol .wide ","))
  return found

theorem fails_parameter_nil : Fails parameter [] := by
  have noAttribute : Fails (items .wide .attribute) [] := (fails_group (lacks_nil _ _)).discard
  have notPromoted : Fails (do visibility; discard (maybe (keyword .wide "readonly"))) [] :=
    ((fails_node (lacks_nil _ _)).bind _).bind _
  have noMark : Fails (symbol .nothing "?") [] := fails_node (lacks_nil _ _)
  have noAtom : Fails (typeAtom .wide) [] := fails_typeAtom .wide (lacks_nil _ _) (lacks_nil _ _)
  have noType : Fails (typeHint .wide) [] :=
    (takes_skip (isGap_nil .wide) (by simp)).bind_fails
      (noMark.maybe.discard.bind_fails (noAtom.bind _)).textOf
  exact (Collects.nil noAttribute).many.bind_fails (notPromoted.maybe.bind_fails
    (((lacks_nil _ _).sees.bind_fails (noType.bind _)).bind _))

/-- The parameters of a list are read one after the other, through its end. -/
theorem collects_parameters (valid : ∀ written ∈ list, written.Valid) :
    ∀ (line : Nat) (lead : List Token), IsQuiet lead → (list = [] → lead = []) → ∃ added,
      Collects listedParameter (leaves line (lead ++ WrittenParameter.listTokens list)) []
        (list.map WrittenParameter.read) added := by
  induction list with
  | nil =>
      intro line lead _ noLead
      rw [noLead rfl]
      exact ⟨[], .nil (fails_parameter_nil.bind _)⟩
  | cons written rest inductionHypothesis =>
      obtain ⟨isValid, areValid⟩ := List.forall_mem_cons.mp valid
      obtain ⟨first, more, isTokens, -⟩ := head_tokens isValid
      intro line lead quiet _
      cases rest with
      | nil =>
          obtain ⟨added, taken⟩ := takes_parameter isValid quiet (lacks_nil _ _) line
          have noComma : Fails (symbol .wide ",") [] := fails_node (lacks_nil _ _)
          rw [List.append_nil] at taken
          refine ⟨_, .cons ?_ (taken.bind (noComma.maybe.discard.bind (takes_pure _ [])))
            (.nil (fails_parameter_nil.bind _))⟩
          rw [WrittenParameter.listTokens, isTokens, length_leaves, List.length_append,
            List.length_cons, List.length_nil]
          omega
      | cons next others =>
          have isList : lead ++ WrittenParameter.listTokens (written :: next :: others) =
              (lead ++ written.tokens) ++ (([] ++ [.comma]) ++
                ([Token.space] ++ WrittenParameter.listTokens (next :: others))) := by
            simp [WrittenParameter.listTokens]
          have noGap : ∀ place, IsGap .wide (leaves place []) := fun _ => isGap_nil .wide
          rw [isList, leaves_append, leaves_append _ ([] ++ [Token.comma])]
          obtain ⟨further, others⟩ := inductionHypothesis areValid _ [.space]
            (by decide) (fun isEmpty => nomatch isEmpty)
          have noDefault : ∀ place more, Lacks .wide (Node.isSymbol "=")
              (leaves place ([] ++ [Token.comma]) ++ more) := fun place =>
            lacks_leaves (noGap place) rfl (fun _ => rfl) []
          obtain ⟨added, taken⟩ := takes_parameter isValid quiet (noDefault _ _) line
          refine ⟨_, .cons ?_ (taken.bind
            ((takes_leafSymbol (noGap _) rfl).maybe.discard.bind (takes_pure _ _))) others⟩
          simp only [List.length_append, length_leaves, List.length_cons]
          omega

/-- What is written between the parentheses of a function is read as its parameters. -/
theorem whole?_parameters (valid : ∀ written ∈ list, written.Valid) (line : Nat) :
    ∃ added, whole? parameters (leaves line (WrittenParameter.listTokens list)) =
      some (list.map WrittenParameter.read, ⟨added, true⟩) := by
  obtain ⟨added, collected⟩ := collects_parameters valid line [] (List.forall_mem_nil _)
    (fun _ => rfl)
  have taken : Takes parameters (leaves line (WrittenParameter.listTokens list)) [] _ added :=
    collected.collect
  exact ⟨added, taken.whole?⟩

end Grammar

end FactoryProxy.Php
