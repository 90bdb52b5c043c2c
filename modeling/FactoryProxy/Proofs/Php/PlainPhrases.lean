import FactoryProxy.Proofs.Name.Resolution
import FactoryProxy.Proofs.Php.PlainTokens
import FactoryProxy.Proofs.Php.ReadParameters
import FactoryProxy.Proofs.Text.Folding
import FactoryProxy.Proofs.Text.Pieces
import FactoryProxy.TypeHint.Builtin

/-!
Contract: names and types as texts, and the tokens that they are made of.

A phrase is a list of plain tokens that ends with a word, so it stays as it is in front of
anything that ends a word. Names of identifiers and builtin types are phrases, and their tokens
are those that the rules of the language expect.

Owns: phrases, names of identifiers, builtin types as texts, and their tokens.
-/

namespace FactoryProxy.Php

open Grouped (lineBreaks)
open Expression (tokensText)

/-! ## Phrases -/

/-- What stands behind ends a word. -/
def EndsWord (behind : List Token) : Prop :=
  ∀ next, behind.head? = some next → next.kind ≠ .word ∧ next.kind ≠ .literal

theorem endsWord_cons {token : Token} (ends : token.kind ≠ .word ∧ token.kind ≠ .literal)
    (behind : List Token) : EndsWord (token :: behind) := by
  intro next isNext
  rw [← Option.some.inj isNext]
  exact ends

/-- The tokens are plain in front of all that ends a word, and start with a word or a symbol. -/
structure IsPhrase (tokens : List Token) : Prop where
  starts : ∃ first rest, tokens = first :: rest ∧ (first.kind = .word ∨ first.kind = .symbol)
  plain : ∀ {behind}, ArePlain behind → EndsWord behind → ArePlain (tokens ++ behind)

theorem ArePlain.word {text : String} {behind : List Token} (isWord : isIdentifier text = true)
    (others : ArePlain behind) (ends : EndsWord behind) : ArePlain (.word text :: behind) := by
  refine .cons (.word isWord) ?_ others
  cases behind with
  | nil => rfl
  | cons next rest =>
      obtain ⟨noWord, noLiteral⟩ := ends next rfl
      show Token.fitsBefore (.word text) next = true
      unfold Token.fitsBefore Token.word
      cases isKind : next.kind <;> simp_all

/-- White space does not go on in front of a phrase. -/
theorem IsPhrase.fitsBlank {tokens : List Token} (phrase : IsPhrase tokens) (text : String)
    (behind : List Token) :
    (tokens ++ behind).head?.all (Token.fitsBefore ⟨.blank, text⟩) = true := by
  obtain ⟨first, rest, rfl, isKind⟩ := phrase.starts
  show Token.fitsBefore ⟨.blank, text⟩ first = true
  unfold Token.fitsBefore
  rcases isKind with isKind | isKind <;> rw [isKind]

theorem IsPhrase.spaced {tokens behind : List Token} (phrase : IsPhrase tokens)
    (others : ArePlain behind) (ends : EndsWord behind) :
    ArePlain (.space :: (tokens ++ behind)) :=
  .cons (Token.isPlain_of_looksPlain (by decide)) (phrase.fitsBlank _ _)
    (phrase.plain others ends)

/-! ## Names -/

/-- Segments with separators between them. -/
def nameTokens (first : String) (rest : List String) : List Token :=
  .word first :: rest.flatMap (fun segment => [.backslash, .word segment])

/-- Identifiers with separators between them. -/
def IsQualified (name : String) : Prop :=
  ∃ first rest, (∀ segment ∈ first :: rest, isIdentifier segment = true) ∧
    name = Text.joinWith "\\" (first :: rest)

theorem tokensText_nameTokens (first : String) (rest : List String) :
    tokensText (nameTokens first rest) = Text.joinWith "\\" (first :: rest) := by
  induction rest generalizing first with
  | nil => rfl
  | cons next others inductionHypothesis =>
      have isRest : nameTokens first (next :: others) =
          [.word first, .backslash] ++ nameTokens next others := rfl
      have isJoined : Text.joinWith "\\" (first :: next :: others) =
          first ++ "\\" ++ Text.joinWith "\\" (next :: others) := rfl
      rw [isRest, isJoined, tokensText_append, inductionHypothesis, tokensText_cons,
        tokensText_singleton]
      rfl

theorem isSegment_word {text : String} (isWord : isIdentifier text = true) :
    (Token.word text).IsSegment := by
  obtain ⟨first, rest, isText, starts, goesOn⟩ := isIdentifier_iff.mp isWord
  have noSeparator : ∀ c, isWordPart c = true → Name.isSeparator c = false := by
    intro c isPart
    rw [Bool.eq_false_iff]
    intro isSeparator
    obtain rfl : c = Name.separator := by simpa [Name.isSeparator] using isSeparator
    exact absurd isPart (by decide)
  refine ⟨rfl, ?_, ?_⟩
  · intro isEmpty
    have noText := congrArg String.toList isEmpty
    rw [show (Token.word text).text = text from rfl, isText] at noText
    cases noText
  · intro c member
    rw [show (Token.word text).text = text from rfl, isText] at member
    rcases List.mem_cons.mp member with rfl | inRest
    · exact noSeparator c (by simp [isWordPart, starts])
    · exact noSeparator c (goesOn c inRest)

theorem isLocalName_nameTokens {first : String} {rest : List String}
    (areWords : ∀ segment ∈ first :: rest, isIdentifier segment = true) :
    IsLocalName (nameTokens first rest) := by
  obtain ⟨isFirst, areRest⟩ := List.forall_mem_cons.mp areWords
  refine ⟨_, _, rfl, isSegment_word isFirst, ?_⟩
  clear areWords
  induction rest with
  | nil => exact .nil
  | cons next others inductionHypothesis =>
      obtain ⟨isNext, areOthers⟩ := List.forall_mem_cons.mp areRest
      exact .cons isQuiet_nil isQuiet_nil (isSegment_word isNext) (inductionHypothesis areOthers)

theorem isPhrase_nameTokens {first : String} {rest : List String}
    (areWords : ∀ segment ∈ first :: rest, isIdentifier segment = true) :
    IsPhrase (nameTokens first rest) := by
  refine ⟨⟨_, _, rfl, .inl rfl⟩, ?_⟩
  intro behind others ends
  induction rest generalizing first with
  | nil => exact .word (areWords first List.mem_cons_self) others ends
  | cons next more inductionHypothesis =>
      obtain ⟨isFirst, areMore⟩ := List.forall_mem_cons.mp areWords
      have isBehind : ArePlain (.backslash :: (nameTokens next more ++ behind)) :=
        .cons (Token.isPlain_of_looksPlain (by decide)) rfl (inductionHypothesis areMore)
      exact .word isFirst isBehind (endsWord_cons (by decide) _)

theorem unbroken_nameTokens {first : String} {rest : List String}
    (areWords : ∀ segment ∈ first :: rest, isIdentifier segment = true) :
    ∀ token ∈ nameTokens first rest, lineBreaks token.text = 0 := by
  have ofWord : ∀ segment, isIdentifier segment = true → lineBreaks segment = 0 := by
    intro segment isWord
    obtain ⟨head, more, isText, starts, goesOn⟩ := isIdentifier_iff.mp isWord
    rw [lineBreaks, isText, List.count_eq_zero]
    intro member
    rcases List.mem_cons.mp member with rfl | inRest
    · exact absurd starts (by decide)
    · exact absurd (goesOn _ inRest) (by decide)
  obtain ⟨isFirst, areRest⟩ := List.forall_mem_cons.mp areWords
  refine List.forall_mem_cons.mpr ⟨ofWord first isFirst, ?_⟩
  intro token member
  obtain ⟨segment, inRest, isToken⟩ := List.mem_flatMap.mp member
  simp only [List.mem_cons, List.not_mem_nil, or_false] at isToken
  rcases isToken with rfl | rfl
  · decide
  · exact ofWord segment (areRest segment inRest)

section Qualified

variable {name parent child : String}

/-- A name of identifiers has tokens that stand on one line. -/
theorem IsQualified.written (isQualified : IsQualified name) :
    ∃ tokens, tokensText tokens = name ∧ IsLocalName tokens ∧ IsPhrase tokens ∧
      (∃ first rest, tokens = first :: rest ∧ first.kind = .word) ∧
      ∀ token ∈ tokens, lineBreaks token.text = 0 := by
  obtain ⟨first, rest, areWords, rfl⟩ := isQualified
  exact ⟨nameTokens first rest, tokensText_nameTokens first rest, isLocalName_nameTokens areWords,
    isPhrase_nameTokens areWords, ⟨_, _, rfl, rfl⟩, unbroken_nameTokens areWords⟩

/-- Such a name has no outer separators. -/
theorem IsQualified.trimmed (isQualified : IsQualified name) : Name.trimSeparators name = name := by
  obtain ⟨tokens, rfl, isLocal, -⟩ := isQualified.written
  exact Text.trim_eq_self isLocal.trimmed

theorem IsQualified.ne_empty (isQualified : IsQualified name) : name ≠ "" := by
  obtain ⟨tokens, rfl, isLocal, -⟩ := isQualified.written
  obtain ⟨last, isLast, -⟩ := IsName.getLast? (.inl isLocal)
  intro isEmpty
  rw [isEmpty] at isLast
  cases isLast

theorem isQualified_singleton (isWord : isIdentifier name = true) : IsQualified name :=
  ⟨name, [], List.forall_mem_singleton.mpr isWord, rfl⟩

/-- An identifier below a name. -/
theorem IsQualified.join (isQualified : IsQualified parent) (isWord : isIdentifier child = true) :
    IsQualified (Name.join parent child) := by
  obtain ⟨first, rest, areWords, rfl⟩ := isQualified
  refine ⟨first, rest ++ [child], ?_, ?_⟩
  · rw [← List.cons_append, List.forall_mem_append]
    exact ⟨areWords, List.forall_mem_singleton.mpr isWord⟩
  · clear areWords
    induction rest generalizing first with
    | nil => rfl
    | cons next others inductionHypothesis =>
        show first ++ "\\" ++ Text.joinWith "\\" (next :: others) ++ "\\" ++ child =
          first ++ "\\" ++ Text.joinWith "\\" (next :: (others ++ [child]))
        rw [← inductionHypothesis next]
        simp only [Name.join, String.append_assoc]
        rfl

theorem free_of_isIdentifier (isWord : isIdentifier name = true) :
    ∀ c ∈ name.toList, Name.isSeparator c = false :=
  (isSegment_word isWord).2.2

/-- The pieces of a name are its identifiers. -/
theorem pieces_joinWith {first : String} {rest : List String}
    (areWords : ∀ segment ∈ first :: rest, isIdentifier segment = true) :
    Text.pieces Name.isSeparator (Text.joinWith "\\" (first :: rest)).toList =
      (first :: rest).map String.toList := by
  induction rest generalizing first with
  | nil => exact Text.pieces_of_free (free_of_isIdentifier (areWords first List.mem_cons_self))
  | cons next others inductionHypothesis =>
      obtain ⟨isFirst, areOthers⟩ := List.forall_mem_cons.mp areWords
      have isText : (Text.joinWith "\\" (first :: next :: others)).toList =
          first.toList ++ Name.separator :: (Text.joinWith "\\" (next :: others)).toList := by
        simp [Text.joinWith, Name.separator]
      rw [isText, Text.pieces_append (by decide), inductionHypothesis areOthers,
        Text.pieces_of_free (free_of_isIdentifier isFirst)]
      rfl

/-- What stands behind the last separator of a name is an identifier. -/
theorem IsQualified.below (isQualified : IsQualified (Name.join parent child))
    (free : ∀ c ∈ child.toList, Name.isSeparator c = false) : isIdentifier child = true := by
  obtain ⟨first, rest, areWords, isName⟩ := isQualified
  have arePieces : Text.pieces Name.isSeparator parent.toList ++ [child.toList] =
      (first :: rest).map String.toList := by
    rw [← pieces_joinWith areWords, ← isName, Name.toList_join, Text.pieces_append (by decide),
      Text.pieces_of_free free]
  have isSegment : child.toList ∈ (first :: rest).map String.toList := by
    rw [← arePieces]
    exact List.mem_append_right _ List.mem_cons_self
  obtain ⟨segment, member, sameText⟩ := List.mem_map.mp isSegment
  rw [← String.toList_injective sameText]
  exact areWords segment member

/-- An identifier with characters of words behind it. -/
theorem isIdentifier_append {more : String} (isWord : isIdentifier name = true)
    (goesOn : ∀ c ∈ more.toList, isWordPart c = true) : isIdentifier (name ++ more) = true := by
  obtain ⟨first, rest, isText, starts, areParts⟩ := isIdentifier_iff.mp isWord
  refine isIdentifier_iff.mpr ⟨first, rest ++ more.toList, ?_, starts, ?_⟩
  · rw [String.toList_append, isText, List.cons_append]
  · exact List.forall_mem_append.mpr ⟨areParts, goesOn⟩

theorem isWordPart_of_isIdentifier (isWord : isIdentifier name = true) :
    ∀ c ∈ name.toList, isWordPart c = true := by
  obtain ⟨first, rest, isText, starts, areParts⟩ := isIdentifier_iff.mp isWord
  rw [isText]
  exact List.forall_mem_cons.mpr ⟨by simp [isWordPart, starts], areParts⟩

/-- A name without its separators is an identifier. -/
theorem IsQualified.stripped (isQualified : IsQualified name) :
    isIdentifier (Name.stripSeparators name) = true := by
  obtain ⟨first, rest, areWords, rfl⟩ := isQualified
  obtain ⟨more, isText⟩ : ∃ more, Text.joinWith "\\" (first :: rest) = first ++ more := by
    cases rest with
    | nil => exact ⟨"", String.append_empty.symm⟩
    | cons next others =>
        exact ⟨"\\" ++ Text.joinWith "\\" (next :: others), String.append_assoc ..⟩
  have isFirst := areWords first List.mem_cons_self
  have keepsFirst : first.toList.filter (fun c => !Name.isSeparator c) = first.toList := by
    rw [List.filter_eq_self]
    intro c member
    simp [free_of_isIdentifier isFirst c member]
  have isStripped : Name.stripSeparators (Text.joinWith "\\" (first :: rest)) =
      first ++ Name.stripSeparators more := by
    apply String.toList_injective
    simp [Name.stripSeparators, isText, keepsFirst]
  rw [isStripped]
  refine isIdentifier_append isFirst (fun c member => ?_)
  rw [Name.stripSeparators, String.toList_ofList, List.mem_filter, Bool.not_eq_true'] at member
  have inName : c ∈ (Text.joinWith "\\" (first :: rest)).toList := by
    rw [isText, String.toList_append]
    exact List.mem_append_right _ member.1
  obtain ⟨piece, isPiece, inside⟩ := Text.exists_piece_of_mem inName member.2
  rw [pieces_joinWith areWords] at isPiece
  obtain ⟨segment, isSegment, rfl⟩ := List.mem_map.mp isPiece
  exact isWordPart_of_isIdentifier (areWords segment isSegment) c inside

end Qualified

/-! ## Types -/

/-- White space, or nothing. -/
def padding (text : String) : List Token :=
  if text = "" then [] else [⟨.blank, text⟩]

/-- A text of white space. -/
def IsSpacing (text : String) : Prop :=
  ∀ c ∈ text.toList, isSpace c = true

instance (text : String) : Decidable (IsSpacing text) :=
  decidable_of_iff (text.toList.all isSpace = true) List.all_eq_true

theorem tokensText_padding (text : String) : tokensText (padding text) = text := by
  unfold padding
  split
  · rename_i isEmpty
    rw [isEmpty]
    rfl
  · rfl

theorem isQuiet_padding (text : String) : IsQuiet (padding text) := by
  unfold padding
  split
  · exact isQuiet_nil
  · simp [IsQuiet]

theorem ArePlain.padded {text : String} {behind : List Token} (spacing : IsSpacing text)
    (others : ArePlain behind)
    (fits : behind.head?.all (Token.fitsBefore ⟨.blank, text⟩) = true) :
    ArePlain (padding text ++ behind) := by
  unfold padding
  split
  · exact others
  · rename_i isSome
    exact .cons (.blank isSome spacing) fits others

theorem EndsWord.padded {text : String} {behind : List Token} (ends : EndsWord behind) :
    EndsWord (padding text ++ behind) := by
  unfold padding
  split
  · exact ends
  · exact endsWord_cons (by decide : TokenKind.blank ≠ .word ∧ TokenKind.blank ≠ .literal) _

/-- Names of builtin types with bars between them, and white space around the bars. -/
inductive IsBuiltinUnion : String → Prop where
  | name {text : String} (isBuiltin : Text.fold text ∈ TypeHint.builtinNames) :
      IsBuiltinUnion text
  | more {text before behind rest : String} (isBuiltin : Text.fold text ∈ TypeHint.builtinNames)
      (spacedBefore : IsSpacing before) (spacedBehind : IsSpacing behind)
      (others : IsBuiltinUnion rest) :
      IsBuiltinUnion (text ++ before ++ "|" ++ behind ++ rest)

/-- A union of builtin types, or a nullable one. -/
def IsBuiltinHint (hint : String) : Prop :=
  IsBuiltinUnion hint ∨
    ∃ between union, hint = "?" ++ between ++ union ∧ IsSpacing between ∧ IsBuiltinUnion union

theorem isWordStart_of_toLower {c : Char} (starts : c.toLower.isLower = true) :
    isWordStart c = true := by
  have isLetter : c.isAlpha = true := by
    rw [isAlpha_iff]
    rcases Text.toLower_cases c with isSame | ⟨low, high, -⟩
    · rw [isSame, isLower_iff] at starts
      exact .inr starts
    · exact .inl ⟨low, high⟩
  simp [isWordStart, isLetter]

/-- A name of a builtin type is an identifier, and no visibility. -/
theorem isIdentifier_of_builtin {text : String}
    (isBuiltin : Text.fold text ∈ TypeHint.builtinNames) :
    isIdentifier text = true ∧ Text.fold text ∉ Grammar.visibilities := by
  have builtins : ∀ name ∈ TypeHint.builtinNames, name.toList ≠ [] ∧
      name.toList.all Char.isLower = true ∧ name ∉ Grammar.visibilities := by decide
  obtain ⟨isSome, areLower, noVisibility⟩ := builtins _ isBuiltin
  refine ⟨?_, noVisibility⟩
  rw [Text.toList_fold] at isSome areLower
  have areWords : ∀ c ∈ text.toList, isWordStart c = true := fun c member =>
    isWordStart_of_toLower (List.all_eq_true.mp areLower _ (List.mem_map_of_mem member))
  rw [isIdentifier_iff]
  cases isText : text.toList with
  | nil => exact absurd (by rw [isText]; rfl) isSome
  | cons first rest =>
      rw [isText] at areWords
      refine ⟨first, rest, rfl, areWords first List.mem_cons_self, fun c member => ?_⟩
      simp [isWordPart, areWords c (List.mem_cons_of_mem _ member)]

/-- A symbol does not go on with a word, whatever white space stands between them. -/
theorem ArePlain.symbol {mark : Token} {between : String} {tokens behind : List Token}
    (isPlain : mark.IsPlain) (isSymbol : mark.kind = .symbol) (spacing : IsSpacing between)
    (phrase : IsPhrase tokens)
    (startsWord : ∀ first, tokens.head? = some first → first.kind = .word)
    (others : ArePlain behind) (ends : EndsWord behind) :
    ArePlain (mark :: (padding between ++ (tokens ++ behind))) := by
  have afterMark : ArePlain (padding between ++ (tokens ++ behind)) :=
    (phrase.plain others ends).padded spacing (phrase.fitsBlank between behind)
  refine .cons isPlain ?_ afterMark
  unfold padding
  split
  · obtain ⟨first, more, rfl, -⟩ := phrase.starts
    show mark.fitsBefore first = true
    unfold Token.fitsBefore
    rw [isSymbol, startsWord first rfl]
  · show mark.fitsBefore ⟨.blank, between⟩ = true
    unfold Token.fitsBefore
    rw [isSymbol]

/-- A union is a phrase of words and bars. -/
theorem IsBuiltinUnion.written {text : String} (isUnion : IsBuiltinUnion text) :
    ∃ tokens, tokensText tokens = text ∧ IsUnion tokens ∧ IsPhrase tokens ∧
      ∀ first, tokens.head? = some first →
        first.kind = .word ∧ Text.fold first.text ∉ Grammar.visibilities := by
  induction isUnion with
  | @name text isBuiltin =>
      obtain ⟨isWord, noVisibility⟩ := isIdentifier_of_builtin isBuiltin
      have areWords : ∀ segment ∈ [text], isIdentifier segment = true :=
        List.forall_mem_singleton.mpr isWord
      refine ⟨nameTokens text [], rfl, .name (.inl (isLocalName_nameTokens areWords)),
        isPhrase_nameTokens areWords, fun first isFirst => ?_⟩
      rw [← Option.some.inj isFirst]
      exact ⟨rfl, noVisibility⟩
  | @more text before behind rest isBuiltin spacedBefore spacedBehind _ inductionHypothesis =>
      obtain ⟨tokens, isText, isUnion, phrase, startsWord⟩ := inductionHypothesis
      obtain ⟨isWord, noVisibility⟩ := isIdentifier_of_builtin isBuiltin
      have areWords : ∀ segment ∈ [text], isIdentifier segment = true :=
        List.forall_mem_singleton.mpr isWord
      refine ⟨nameTokens text [] ++ (padding before ++ .bar :: (padding behind ++ tokens)), ?_,
        .more (.inl (isLocalName_nameTokens areWords)) (isQuiet_padding before)
          (isQuiet_padding behind) isUnion, ⟨⟨_, _, rfl, .inl rfl⟩, ?_⟩, fun first isFirst => ?_⟩
      · rw [tokensText_append, tokensText_append, tokensText_cons, tokensText_append, isText,
          tokensText_padding, tokensText_padding]
        simp only [String.append_assoc]
        rfl
      · intro further others ends
        have fromBar : ArePlain (padding before ++
            .bar :: (padding behind ++ (tokens ++ further))) :=
          (ArePlain.symbol (Token.isPlain_of_looksPlain (by decide)) rfl spacedBehind phrase
            (fun first isFirst => (startsWord first isFirst).1) others ends).padded spacedBefore rfl
        have endsBar : EndsWord (.bar :: (padding behind ++ (tokens ++ further))) :=
          endsWord_cons (by decide) _
        simpa [nameTokens] using ArePlain.word isWord fromBar endsBar.padded
      · rw [← Option.some.inj isFirst]
        exact ⟨rfl, noVisibility⟩

/-- A builtin type is a phrase, and starts with no visibility. -/
theorem IsBuiltinHint.written {hint : String} (isHint : IsBuiltinHint hint) :
    ∃ tokens, tokensText tokens = hint ∧ IsType tokens ∧ IsPhrase tokens ∧
      ∀ first, tokens.head? = some first → Text.fold first.text ∉ Grammar.visibilities := by
  rcases isHint with isUnion | ⟨between, union, rfl, spacing, isUnion⟩
  · obtain ⟨tokens, isText, isUnion, phrase, startsWord⟩ := isUnion.written
    exact ⟨tokens, isText, .inl isUnion, phrase, fun first isFirst => (startsWord first isFirst).2⟩
  · obtain ⟨tokens, isText, isUnion, phrase, startsWord⟩ := isUnion.written
    refine ⟨.questionMark :: (padding between ++ tokens), ?_,
      .inr ⟨_, _, rfl, isQuiet_padding between, isUnion⟩, ⟨⟨_, _, rfl, .inr rfl⟩, ?_⟩, ?_⟩
    · rw [tokensText_cons, tokensText_append, isText, tokensText_padding, String.append_assoc]
      rfl
    · intro further others ends
      have plain : ArePlain (.questionMark :: (padding between ++ (tokens ++ further))) :=
        .symbol (Token.isPlain_of_looksPlain (by decide)) rfl spacing phrase
          (fun first isFirst => (startsWord first isFirst).1) others ends
      simpa using plain
    · intro first isFirst
      rw [← Option.some.inj isFirst]
      decide

/-- No slash stands in a builtin type. -/
theorem IsBuiltinUnion.slash_notMem {text : String} (isUnion : IsBuiltinUnion text) :
    '/' ∉ text.toList := by
  have ofName : ∀ name : String, Text.fold name ∈ TypeHint.builtinNames → '/' ∉ name.toList := by
    intro name isBuiltin member
    exact absurd (isWordPart_of_isIdentifier (isIdentifier_of_builtin isBuiltin).1 _ member)
      (by decide)
  have ofSpacing : ∀ between, IsSpacing between → '/' ∉ between.toList :=
    fun between spacing member => absurd (spacing _ member) (by decide)
  induction isUnion with
  | name isBuiltin => exact ofName _ isBuiltin
  | more isBuiltin spacedBefore spacedBehind _ inductionHypothesis =>
      simp only [String.toList_append, List.mem_append, not_or]
      exact ⟨⟨⟨⟨ofName _ isBuiltin, ofSpacing _ spacedBefore⟩, by decide⟩,
        ofSpacing _ spacedBehind⟩, inductionHypothesis⟩

theorem IsBuiltinHint.slash_notMem {hint : String} (isHint : IsBuiltinHint hint) :
    '/' ∉ hint.toList := by
  rcases isHint with isUnion | ⟨between, union, rfl, spacing, isUnion⟩
  · exact isUnion.slash_notMem
  · simp only [String.toList_append, List.mem_append, not_or]
    exact ⟨⟨by decide, fun member => absurd (spacing _ member) (by decide)⟩, isUnion.slash_notMem⟩

end FactoryProxy.Php
