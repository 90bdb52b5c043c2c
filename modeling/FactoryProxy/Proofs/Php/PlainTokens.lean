import FactoryProxy.Proofs.Php.BlockComments
import FactoryProxy.Proofs.Php.WrittenNames

/-!
Contract: texts made of plain tokens, and the tokens that are read from them.

The lexer takes the longest token at each place, so a text is cut into the tokens that it was
put together from only if none of them goes on with what stands behind it. For the tokens of
generated code that can be told from the next character alone.

Owns: identifiers, the plain tokens, which character ends them, and the cut of a whole file.
Does not own: texts with embedded expressions, quoted texts and comments that end with a line.
-/

namespace FactoryProxy.Php

open Expression (tokensText)

/-! ## Identifiers -/

/-- A word that can be read: its first character starts words, and the others stand in words. -/
def isIdentifier (text : String) : Bool :=
  match text.toList with
  | [] => false
  | first :: rest => isWordStart first && rest.all isWordPart

theorem isIdentifier_iff {text : String} :
    isIdentifier text = true ↔
      ∃ first rest, text.toList = first :: rest ∧ isWordStart first = true ∧
        ∀ c ∈ rest, isWordPart c = true := by
  unfold isIdentifier
  cases text.toList with
  | nil => simp
  | cons first rest => simp

theorem isUpper_iff {c : Char} : c.isUpper = true ↔ 65 ≤ c.toNat ∧ c.toNat ≤ 90 := by
  show decide ('A'.val ≤ c.val ∧ c.val ≤ 'Z'.val) = true ↔ _
  rw [decide_eq_true_iff, UInt32.le_iff_toNat_le, UInt32.le_iff_toNat_le]
  rfl

theorem isLower_iff {c : Char} : c.isLower = true ↔ 97 ≤ c.toNat ∧ c.toNat ≤ 122 := by
  show (decide ('a'.val ≤ c.val) && decide (c.val ≤ 'z'.val)) = true ↔ _
  rw [Bool.and_eq_true, decide_eq_true_iff, decide_eq_true_iff, UInt32.le_iff_toNat_le,
    UInt32.le_iff_toNat_le]
  rfl

theorem isAlpha_iff {c : Char} :
    c.isAlpha = true ↔
      (65 ≤ c.toNat ∧ c.toNat ≤ 90) ∨ (97 ≤ c.toNat ∧ c.toNat ≤ 122) := by
  show (c.isUpper || c.isLower) = true ↔ _
  rw [Bool.or_eq_true, isUpper_iff, isLower_iff]

theorem isSpace_of_isWordStart {c : Char} (starts : isWordStart c = true) : isSpace c = false := by
  simp only [isWordStart, Bool.or_eq_true, Bool.and_eq_true, beq_iff_eq, Bool.not_eq_true',
    decide_eq_true_eq, isAlpha_iff] at starts
  rcases starts with (letter | rfl) | ⟨-, noSpace⟩
  · have noBlank : (c == ' ') = false := by
      rw [beq_eq_false_iff_ne]
      rintro rfl
      exact absurd letter (by decide)
    simp only [isSpace, noBlank, Bool.false_or, Bool.or_eq_false_iff, Bool.and_eq_false_iff,
      decide_eq_false_iff_not, beq_eq_false_iff_ne]
    omega
  · decide
  · exact noSpace

theorem toNat_of_isDigit {c : Char} (isDigit : c.isDigit = true) :
    48 ≤ c.toNat ∧ c.toNat ≤ 57 := by
  simpa [Char.isDigit, UInt32.le_iff_toNat_le] using isDigit

theorem isWordPart_of_isSpace {c : Char} (isBlank : isSpace c = true) : isWordPart c = false := by
  have noStart : isWordStart c = false := by
    rw [Bool.eq_false_iff]
    intro starts
    rw [isSpace_of_isWordStart starts] at isBlank
    cases isBlank
  have noDigit : c.isDigit = false := by
    rw [Bool.eq_false_iff]
    intro isDigit
    have bounds := toNat_of_isDigit isDigit
    simp only [isSpace, Bool.or_eq_true, Bool.and_eq_true, beq_iff_eq, decide_eq_true_eq] at isBlank
    rcases isBlank with ((((rfl | inRange) | isCode) | isCode) | isCode) | isCode
    · exact absurd bounds (by decide)
    all_goals omega
  rw [isWordPart, noStart, noDigit]
  rfl

/-- The characters of identifiers are those of labels, white space apart. -/
theorem isWordPart_iff {c : Char} :
    isWordPart c = true ↔ isLabelPart c = true ∧ isSpace c = false := by
  constructor
  · intro isPart
    refine ⟨?_, ?_⟩
    · simp only [isWordPart, isWordStart, isLabelPart, Char.isAlphanum, Bool.or_eq_true,
        Bool.and_eq_true] at isPart ⊢
      tauto
    · rw [Bool.eq_false_iff]
      intro isBlank
      rw [isWordPart_of_isSpace isBlank] at isPart
      cases isPart
  · rintro ⟨isLabel, noBlank⟩
    simp only [isWordPart, isWordStart, isLabelPart, Char.isAlphanum, Bool.or_eq_true,
      Bool.and_eq_true, noBlank, Bool.not_false] at isLabel ⊢
    tauto

/-- A label of the language, which starts with no digit. -/
def isLabel (text : String) : Bool :=
  text.toList.all isLabelPart && text.toList.head?.any (fun c => !c.isDigit)

theorem isWordStart_iff {c : Char} :
    isWordStart c = true ↔ isWordPart c = true ∧ c.isDigit = false := by
  constructor
  · intro starts
    refine ⟨by simp [isWordPart, starts], ?_⟩
    rw [Bool.eq_false_iff]
    intro isDigit
    have bounds := toNat_of_isDigit isDigit
    simp only [isWordStart, Bool.or_eq_true, Bool.and_eq_true, beq_iff_eq, decide_eq_true_eq,
      isAlpha_iff] at starts
    rcases starts with (letter | rfl) | ⟨high, -⟩
    · omega
    · exact absurd bounds (by decide)
    · omega
  · rintro ⟨isPart, noDigit⟩
    simpa [isWordPart, noDigit] using isPart

/-- The labels that can be read as words are those without white space. -/
theorem isIdentifier_iff_isLabel {text : String} :
    isIdentifier text = true ↔ isLabel text = true ∧ ∀ c ∈ text.toList, isSpace c = false := by
  unfold isIdentifier isLabel
  cases text.toList with
  | nil => simp
  | cons first rest =>
      simp only [isWordStart_iff, isWordPart_iff, Bool.and_eq_true, List.all_eq_true,
        List.head?_cons, Option.any_some, Bool.not_eq_true', List.forall_mem_cons]
      constructor
      · rintro ⟨⟨⟨isFirst, noBlank⟩, noDigit⟩, areRest⟩
        exact ⟨⟨⟨isFirst, fun c member => (areRest c member).1⟩, noDigit⟩, noBlank,
          fun c member => (areRest c member).2⟩
      · rintro ⟨⟨⟨isFirst, areRest⟩, noDigit⟩, noBlank, areSolid⟩
        exact ⟨⟨⟨isFirst, noBlank⟩, noDigit⟩, fun c member => ⟨areRest c member, areSolid c member⟩⟩

/-! ## Single tokens -/

/-- The lexer is in code, and all open braces are those of code. -/
structure LexerState.InCode (state : LexerState) : Prop where
  isCode : state.mode = .code
  areBlocks : ∀ brace ∈ state.braces, brace = .block

/-- In code the token is read in front of the rest. -/
def Token.ReadBefore (token : Token) (rest : List Char) : Prop :=
  ∀ state : LexerState, state.InCode → ∃ first more next, token.text.toList = first :: more ∧
    next.InCode ∧ lexeme state first (more ++ rest) = ⟨token, next, rest⟩

theorem quotation?_eq_none {first : Char} {rest : List Char}
    (noMark : first ∉ ['\'', '"', '\x60'])
    (noLetter : ∀ mark, rest.head? = some mark → first ∈ ['b', 'B'] → mark ∉ ['\'', '"']) :
    quotation? first rest = none := by
  simp only [List.mem_cons, List.not_mem_nil, or_false, not_or] at noMark
  unfold quotation?
  cases rest with
  | nil => simp [noMark]
  | cons mark behind =>
      have notPrefixed := noLetter mark rfl
      simp only [List.mem_cons, List.not_mem_nil, or_false, not_or] at notPrefixed
      simp only [noMark, beq_iff_eq, Bool.or_eq_true, Bool.and_eq_true, or_self, if_false]
      rw [if_neg]
      rintro ⟨isLetter, isMark⟩
      rcases isMark with rfl | rfl
      · exact (notPrefixed isLetter).1 rfl
      · exact (notPrefixed isLetter).2 rfl

theorem span_append {inClass : Char → Bool} {head rest : List Char}
    (inside : ∀ c ∈ head, inClass c = true)
    (ends : ∀ c, rest.head? = some c → inClass c = false) :
    (head ++ rest).span inClass = (head, rest) := by
  rw [List.span_eq_takeWhile_dropWhile, List.takeWhile_append_of_pos inside,
    List.dropWhile_append_of_pos inside]
  cases rest with
  | nil => simp
  | cons first behind =>
      have isEnd := ends first rfl
      rw [List.takeWhile_cons_of_neg (by simp [isEnd]),
        List.dropWhile_cons_of_neg (by simp [isEnd]), List.append_nil]

theorem readBefore_word {text : String} {rest : List Char} (isWord : isIdentifier text = true)
    (ends : ∀ c, rest.head? = some c → isWordPart c = false ∧ c ∉ ['\'', '"']) :
    Token.ReadBefore ⟨.word, text⟩ rest := by
  obtain ⟨first, more, isText, starts, goesOn⟩ := isIdentifier_iff.mp isWord
  rintro state inCode
  refine ⟨first, more, state, isText, inCode, ?_⟩
  have noMark : first ∉ ['\'', '"', '\x60'] := by
    intro isMark
    simp only [List.mem_cons, List.not_mem_nil, or_false] at isMark
    rcases isMark with rfl | rfl | rfl <;> exact absurd starts (by decide)
  have notQuoted : quotation? first (more ++ rest) = none := by
    refine quotation?_eq_none noMark ?_
    intro mark isHead _
    cases more with
    | nil => exact (ends mark isHead).2
    | cons next others =>
        obtain rfl : next = mark := Option.some.inj isHead
        have isPart := goesOn next List.mem_cons_self
        intro isMark
        simp only [List.mem_cons, List.not_mem_nil, or_false] at isMark
        rcases isMark with rfl | rfl <;> exact absurd isPart (by decide)
  have isSpan := span_append goesOn (fun c isHead => (ends c isHead).1)
  unfold lexeme codeLexeme
  rw [inCode.isCode]
  dsimp only
  rw [notQuoted]
  dsimp only
  rw [isSpace_of_isWordStart starts, starts, isSpan]
  simp only [Bool.false_eq_true, if_false, if_true, Lexeme.ofSpan, Span.cons, ← isText,
    String.ofList_toList]

theorem readBefore_blank {text : String} {rest : List Char} (isSome : text ≠ "")
    (isBlank : ∀ c ∈ text.toList, isSpace c = true)
    (ends : ∀ c, rest.head? = some c → isSpace c = false) :
    Token.ReadBefore ⟨.blank, text⟩ rest := by
  obtain ⟨first, more, isText⟩ := List.exists_cons_of_ne_nil
    (fun isNil => isSome (String.toList_eq_nil_iff.mp isNil))
  rw [isText] at isBlank
  obtain ⟨firstBlank, moreBlank⟩ := List.forall_mem_cons.mp isBlank
  rintro state inCode
  refine ⟨first, more, state, isText, inCode, ?_⟩
  have notQuoted : quotation? first (more ++ rest) = none := by
    refine quotation?_eq_none ?_ ?_
    · intro isMark
      simp only [List.mem_cons, List.not_mem_nil, or_false] at isMark
      rcases isMark with rfl | rfl | rfl <;> exact absurd firstBlank (by decide)
    · intro mark _ isLetter
      simp only [List.mem_cons, List.not_mem_nil, or_false] at isLetter
      rcases isLetter with rfl | rfl <;> exact absurd firstBlank (by decide)
  have isSpan := span_append moreBlank ends
  unfold lexeme codeLexeme
  rw [inCode.isCode]
  dsimp only
  rw [notQuoted]
  dsimp only
  rw [firstBlank, isSpan]
  simp only [if_true, Lexeme.ofSpan, Span.cons, ← isText, String.ofList_toList]

/-! ## Symbols and brackets -/

/-- A symbol that starts with the character goes on with the next one. -/
def continues (c next : Char) : Bool :=
  longSymbols.any (startsWith [c, next]) || (c == '?' && next == '>')

/-- The single characters among the symbols of generated code. -/
def singleSymbols : List Char := [';', ',', ':', '=', '$', '&', '|', '?', '\\']

theorem spanSymbol_single {c : Char} {rest : List Char}
    (ends : ∀ next, rest.head? = some next → continues c next = false) :
    spanSymbol (c :: rest) = ([c], rest) := by
  have areLong : ∀ symbol ∈ longSymbols, 2 ≤ symbol.length := by decide
  have noneLonger : longSymbols.find? (startsWith · (c :: rest)) = none := by
    rw [List.find?_eq_none]
    intro symbol member starts
    obtain ⟨first, others, rfl⟩ := List.exists_cons_of_length_pos
      (Nat.lt_of_lt_of_le Nat.zero_lt_two (areLong symbol member))
    obtain ⟨second, behind, rfl⟩ := List.exists_cons_of_length_pos
      (Nat.le_of_succ_le_succ (areLong _ member))
    unfold startsWith after? at starts
    split at starts
    · rename_i same
      subst same
      cases rest with
      | nil => cases starts
      | cons next others =>
          unfold after? at starts
          split at starts
          · rename_i same
            subst same
            have goesOn : continues first second = true := by
              unfold continues
              rw [Bool.or_eq_true, List.any_eq_true]
              exact .inl ⟨_, member, by simp [startsWith, after?]⟩
            rw [ends second rfl] at goesOn
            cases goesOn
          · cases starts
    · cases starts
  unfold spanSymbol
  rw [noneLonger]
  simp [Span.ofLength]

/-- The character starts neither a quoted text nor white space, a word, a number or a comment. -/
def isMark (c : Char) : Bool :=
  !(['\'', '"', '\x60', '#', '/', '<'].contains c || isSpace c || isWordStart c || c.isDigit)

theorem codeLexeme_mark {first : Char} {rest : List Char} (state : LexerState)
    (marks : isMark first = true)
    (noTag : first = '?' → ∀ next, rest.head? = some next → next ≠ '>') :
    codeLexeme state first rest = symbolLexeme state first rest := by
  simp only [isMark, Bool.not_eq_true', Bool.or_eq_false_iff, List.contains_eq_mem,
    decide_eq_false_iff_not, List.mem_cons, List.not_mem_nil, or_false, not_or] at marks
  obtain ⟨⟨⟨⟨noSingle, noDouble, noBack, noHash, noSlash, noLess⟩, notBlank⟩, noWord⟩, noDigit⟩ :=
    marks
  have notQuoted : quotation? first rest = none := by
    refine quotation?_eq_none (by simp [noSingle, noDouble, noBack]) ?_
    intro mark _ isLetter
    simp only [List.mem_cons, List.not_mem_nil, or_false] at isLetter
    rcases isLetter with rfl | rfl <;> exact absurd noWord (by decide)
  unfold codeLexeme
  rw [notQuoted]
  dsimp only
  rw [notBlank, noWord, noDigit]
  simp only [Bool.false_eq_true, if_false]
  split
  · exact absurd rfl noHash
  · exact absurd rfl noHash
  · exact absurd rfl noSlash
  · exact absurd rfl noSlash
  · exact absurd rfl (noTag rfl _ rfl)
  · exact absurd rfl noLess
  · rfl

/-- A token that starts with a mark is read by the rule for symbols and brackets. -/
theorem lexeme_mark {state : LexerState} {first : Char} {rest : List Char}
    (inCode : state.InCode) (marks : isMark first = true)
    (noTag : first = '?' → ∀ next, rest.head? = some next → next ≠ '>') :
    lexeme state first rest = symbolLexeme state first rest := by
  unfold lexeme
  rw [inCode.isCode]
  exact codeLexeme_mark state marks noTag

theorem singleton_ne_ellipsis (c : Char) : (String.singleton c == "...") = false := by
  rw [beq_eq_false_iff_ne]
  intro same
  have characters := congrArg String.toList same
  rw [String.toList_singleton] at characters
  cases characters

theorem readBefore_symbol {c : Char} {rest : List Char} (isSingle : c ∈ singleSymbols)
    (ends : ∀ next, rest.head? = some next → continues c next = false) :
    Token.ReadBefore ⟨.symbol, String.singleton c⟩ rest := by
  rintro state inCode
  refine ⟨c, [], state, String.toList_singleton c, inCode, ?_⟩
  have plain : singleSymbols.all (fun single =>
      isMark single && (opening? single).isNone && (closing? single).isNone) = true := by decide
  have isPlain := List.all_eq_true.mp plain c isSingle
  simp only [Bool.and_eq_true, Option.isNone_iff_eq_none] at isPlain
  obtain ⟨⟨marks, noOpening⟩, noClosing⟩ := isPlain
  have noTag : c = '?' → ∀ next, rest.head? = some next → next ≠ '>' := by
    rintro rfl next isHead rfl
    exact absurd (ends '>' isHead) (by decide)
  rw [List.nil_append, lexeme_mark inCode marks noTag, symbolLexeme, noOpening, noClosing]
  dsimp only
  rw [spanSymbol_single ends]
  rfl

theorem readBefore_ellipsis (rest : List Char) : Token.ReadBefore ⟨.symbol, "..."⟩ rest := by
  rintro state inCode
  refine ⟨'.', ['.', '.'], state, rfl, inCode, ?_⟩
  have isFound : longSymbols.find? (startsWith · ('.' :: '.' :: '.' :: rest)) =
      some ['.', '.', '.'] := by
    simp [longSymbols, startsWith, after?]
  rw [lexeme_mark inCode (by decide) (fun isTag => absurd isTag (by decide))]
  unfold symbolLexeme spanSymbol
  dsimp only [List.cons_append, List.nil_append]
  rw [isFound]
  simp [opening?, closing?, Span.ofLength, Lexeme.ofSpan]

theorem LexerState.InCode.opened {state : LexerState} (inCode : state.InCode)
    (bracket : Bracket) : (state.opened bracket).InCode := by
  unfold LexerState.opened
  split
  · exact ⟨inCode.isCode, List.forall_mem_cons.mpr ⟨rfl, inCode.areBlocks⟩⟩
  · exact inCode

theorem LexerState.InCode.closed {state : LexerState} (inCode : state.InCode)
    (bracket : Bracket) : (state.closed bracket).InCode := by
  unfold LexerState.closed
  split
  · split
    · exact inCode
    · rename_i outer isBraces
      refine ⟨inCode.isCode, fun brace member => inCode.areBlocks brace ?_⟩
      rw [isBraces]
      exact List.mem_cons_of_mem _ member
    · rename_i delimiter outer isBraces
      have isBlock := inCode.areBlocks (.embedded delimiter) (isBraces ▸ List.mem_cons_self)
      cases isBlock
  · exact inCode

theorem readBefore_opening {c : Char} {bracket : Bracket} (rest : List Char)
    (isOpening : (c, bracket) ∈ [('(', Bracket.round), ('\x7b', .curly)]) :
    Token.ReadBefore ⟨.opening bracket, String.singleton c⟩ rest := by
  rintro state inCode
  refine ⟨c, [], state.opened bracket, String.toList_singleton c, inCode.opened bracket, ?_⟩
  have plain : ∀ pair ∈ [('(', Bracket.round), ('\x7b', .curly)],
      isMark pair.1 = true ∧ pair.1 ≠ '?' ∧ opening? pair.1 = some pair.2 := by decide
  obtain ⟨marks, noTag, opens⟩ := plain (c, bracket) isOpening
  rw [List.nil_append, lexeme_mark inCode marks (fun isTag => absurd isTag noTag), symbolLexeme,
    opens]
  rfl

theorem readBefore_closing {c : Char} {bracket : Bracket} (rest : List Char)
    (isClosing : (c, bracket) ∈ [(')', Bracket.round), ('\x7d', .curly)]) :
    Token.ReadBefore ⟨.closing bracket, String.singleton c⟩ rest := by
  rintro state inCode
  refine ⟨c, [], state.closed bracket, String.toList_singleton c, inCode.closed bracket, ?_⟩
  have plain : ∀ pair ∈ [(')', Bracket.round), ('\x7d', .curly)],
      isMark pair.1 = true ∧ pair.1 ≠ '?' ∧ opening? pair.1 = none ∧
        closing? pair.1 = some pair.2 := by decide
  obtain ⟨marks, noTag, noOpening, closes⟩ := plain (c, bracket) isClosing
  rw [List.nil_append, lexeme_mark inCode marks (fun isTag => absurd isTag noTag), symbolLexeme,
    noOpening, closes]
  rfl

/-! ## Comments and numbers -/

/-- A comment between its marks. -/
def blockComment (text : String) : Token :=
  ⟨.comment, "/*" ++ text ++ "*/"⟩

theorem readBefore_blockComment {text : String} (rest : List Char)
    (isFree : ¬ HoldsEnd text.toList) : (blockComment text).ReadBefore rest := by
  rintro state inCode
  refine ⟨'/', '*' :: (text.toList ++ commentEnd), state, ?_, inCode, ?_⟩
  · simp [blockComment, commentEnd]
  · unfold lexeme
    rw [inCode.isCode]
    have isRead := (codeLexeme_comment_iff state text.toList rest).mpr isFree
    refine isRead.trans ?_
    have isText : String.ofList (['/', '*'] ++ text.toList ++ commentEnd) =
        (blockComment text).text := by
      apply String.toList_injective
      simp [blockComment, commentEnd]
    rw [isText]
    rfl

theorem readBefore_one_end : Token.ReadBefore ⟨.literal, "1"⟩ [] := by
  rintro state inCode
  refine ⟨'1', [], state, rfl, inCode, ?_⟩
  unfold lexeme
  rw [inCode.isCode]
  rfl

/-- The number one in front of a closing bracket. -/
theorem readBefore_one (rest : List Char) : Token.ReadBefore ⟨.literal, "1"⟩ (')' :: rest) := by
  rintro state inCode
  refine ⟨'1', [], state, rfl, inCode, ?_⟩
  unfold lexeme
  rw [inCode.isCode]
  rfl

/-! ## Plain tokens -/

/-- The tokens that generated code is made of. -/
inductive Token.IsPlain : Token → Prop where
  | word {text : String} (isWord : isIdentifier text = true) : IsPlain ⟨.word, text⟩
  | blank {text : String} (isSome : text ≠ "") (isBlank : ∀ c ∈ text.toList, isSpace c = true) :
      IsPlain ⟨.blank, text⟩
  | symbol {c : Char} (isSingle : c ∈ singleSymbols) : IsPlain ⟨.symbol, String.singleton c⟩
  | ellipsis : IsPlain ⟨.symbol, "..."⟩
  | opening {c : Char} {bracket : Bracket}
      (isOpening : (c, bracket) ∈ [('(', Bracket.round), ('\x7b', .curly)]) :
      IsPlain ⟨.opening bracket, String.singleton c⟩
  | closing {c : Char} {bracket : Bracket}
      (isClosing : (c, bracket) ∈ [(')', Bracket.round), ('\x7d', .curly)]) :
      IsPlain ⟨.closing bracket, String.singleton c⟩
  | comment {text : String} (isFree : ¬ HoldsEnd text.toList) : IsPlain (blockComment text)
  | one : IsPlain ⟨.literal, "1"⟩

/-- The token does not go on with the character. -/
def Token.endsBefore (token : Token) (next : Char) : Bool :=
  match token.kind with
  | .word => !(isWordPart next || ['\'', '"'].contains next)
  | .blank => !isSpace next
  | .symbol => token.text == "..." || !token.text.toList.head?.any (continues · next)
  | .literal => next == ')'
  | _ => true

theorem Token.IsPlain.readBefore {token : Token} {rest : List Char} (plain : token.IsPlain)
    (ends : ∀ next, rest.head? = some next → token.endsBefore next = true) :
    token.ReadBefore rest := by
  cases plain with
  | word isWord =>
      refine readBefore_word isWord (fun c isNext => ?_)
      simpa [Token.endsBefore] using ends c isNext
  | blank isSome isBlank =>
      refine readBefore_blank isSome isBlank (fun c isNext => ?_)
      simpa [Token.endsBefore] using ends c isNext
  | @symbol c isSingle =>
      refine readBefore_symbol isSingle (fun next isNext => ?_)
      simpa [Token.endsBefore, singleton_ne_ellipsis] using ends next isNext
  | ellipsis => exact readBefore_ellipsis rest
  | opening isOpening => exact readBefore_opening rest isOpening
  | closing isClosing => exact readBefore_closing rest isClosing
  | comment isFree => exact readBefore_blockComment rest isFree
  | one =>
      cases rest with
      | nil => exact readBefore_one_end
      | cons next behind =>
          obtain rfl : next = ')' := by simpa [Token.endsBefore] using ends next rfl
          exact readBefore_one behind

theorem Token.IsPlain.text_ne {token : Token} (plain : token.IsPlain) :
    token.text.toList ≠ [] := by
  have inCode : LexerState.InCode ⟨.code, []⟩ := ⟨rfl, List.forall_mem_nil _⟩
  have noNext : ∀ next, ([] : List Char).head? = some next → token.endsBefore next = true :=
    fun _ isNext => nomatch isNext
  obtain ⟨first, more, _, isText, _⟩ := plain.readBefore noNext _ inCode
  rw [isText]
  exact List.cons_ne_nil _ _

/-! ## Neighbours -/

/-- The characters that symbols go on with. -/
def followers : List Char := ['<', '>', '*', '.', '=', '?', '-', ':', '+', '&', '|']

theorem mem_followers {c next : Char} (goesOn : continues c next = true) : next ∈ followers := by
  have seconds : ∀ symbol ∈ longSymbols, symbol.tail.head?.all followers.contains = true := by
    decide
  unfold continues at goesOn
  rw [Bool.or_eq_true, List.any_eq_true] at goesOn
  rcases goesOn with ⟨symbol, member, starts⟩ | isTag
  · have isSecond := seconds symbol member
    cases symbol with
    | nil => cases starts
    | cons first others =>
        cases others with
        | nil =>
            unfold startsWith after? at starts
            split at starts <;> cases starts
        | cons second behind =>
            unfold startsWith after? at starts
            split at starts
            · unfold after? at starts
              split at starts
              · rename_i same
                simpa [same] using isSecond
              · cases starts
            · cases starts
  · rw [Bool.and_eq_true, beq_iff_eq, beq_iff_eq] at isTag
    rw [isTag.2]
    decide

/-- The token does not go on with the one behind it, as the kinds and the symbols tell. -/
def Token.fitsBefore (token behind : Token) : Bool :=
  match token.kind, behind.kind with
  | .word, .word | .word, .literal | .blank, .blank => false
  | .symbol, .symbol => token.text == "..." ||
      !token.text.toList.head?.any (fun c => behind.text.toList.head?.any (continues c))
  | .literal, _ => behind.text == ")"
  | _, _ => true

/-- What a plain token starts with. -/
theorem Token.IsPlain.head {token : Token} (plain : token.IsPlain) {c : Char}
    (isHead : token.text.toList.head? = some c) :
    (token.kind = .word ∧ isWordStart c = true) ∨ (token.kind = .blank ∧ isSpace c = true) ∨
      (token.kind = .symbol ∧ c ∈ '.' :: singleSymbols) ∨ (token.kind = .literal ∧ c = '1') ∨
      (token.kind ∉ [.word, .blank, .symbol, .literal] ∧
        c ∈ ['(', ')', '\x7b', '\x7d', '/']) := by
  cases plain with
  | word isWord =>
      obtain ⟨first, rest, isText, starts, -⟩ := isIdentifier_iff.mp isWord
      rw [isText] at isHead
      exact .inl ⟨rfl, Option.some.inj isHead ▸ starts⟩
  | blank isSome isBlank => exact .inr (.inl ⟨rfl, isBlank c (List.mem_of_head? isHead)⟩)
  | symbol isSingle =>
      rw [String.toList_singleton] at isHead
      exact .inr (.inr (.inl ⟨rfl, List.mem_cons_of_mem _ (Option.some.inj isHead ▸ isSingle)⟩))
  | ellipsis =>
      obtain rfl : '.' = c := Option.some.inj isHead
      exact .inr (.inr (.inl ⟨rfl, List.mem_cons_self⟩))
  | one =>
      obtain rfl : '1' = c := Option.some.inj isHead
      exact .inr (.inr (.inr (.inl ⟨rfl, rfl⟩)))
  | @opening first bracket isOpening =>
      rw [String.toList_singleton] at isHead
      obtain rfl : first = c := Option.some.inj isHead
      have areMarks : ∀ pair ∈ [('(', Bracket.round), ('\x7b', .curly)],
          pair.1 ∈ ['(', ')', '\x7b', '\x7d', '/'] := by decide
      exact .inr (.inr (.inr (.inr ⟨by simp, areMarks _ isOpening⟩)))
  | @closing first bracket isClosing =>
      rw [String.toList_singleton] at isHead
      obtain rfl : first = c := Option.some.inj isHead
      have areMarks : ∀ pair ∈ [(')', Bracket.round), ('\x7d', .curly)],
          pair.1 ∈ ['(', ')', '\x7b', '\x7d', '/'] := by decide
      exact .inr (.inr (.inr (.inr ⟨by simp, areMarks _ isClosing⟩)))
  | @comment text isFree =>
      have isText : (blockComment text).text.toList.head? = some '/' := by simp [blockComment]
      obtain rfl : '/' = c := Option.some.inj (isText.symm.trans isHead)
      exact .inr (.inr (.inr (.inr ⟨by simp [blockComment], by decide⟩)))

theorem Token.IsPlain.endsBefore {token behind : Token} (plain : token.IsPlain)
    (behindPlain : behind.IsPlain) (fits : token.fitsBefore behind = true) {next : Char}
    (isNext : behind.text.toList.head? = some next) : token.endsBefore next = true := by
  have starts := behindPlain.head isNext
  cases plain with
  | word isWord =>
      have marksEnd : (['(', ')', '\x7b', '\x7d', '/'] ++ '.' :: singleSymbols).all
          (fun c => !(isWordPart c || ['\'', '"'].contains c)) = true := by decide
      rw [List.all_eq_true] at marksEnd
      rcases starts with ⟨isKind, -⟩ | ⟨-, isBlank⟩ | ⟨-, inSymbols⟩ | ⟨isKind, -⟩ | ⟨-, inMarks⟩
      · simp [Token.fitsBefore, isKind] at fits
      · have noQuote : ['\'', '"'].contains next = false := by
          rw [Bool.eq_false_iff, ne_eq, List.contains_iff_mem]
          intro isQuote
          simp only [List.mem_cons, List.not_mem_nil, or_false] at isQuote
          rcases isQuote with rfl | rfl <;> exact absurd isBlank (by decide)
        simp only [Token.endsBefore, isWordPart_of_isSpace isBlank, noQuote, Bool.or_self,
          Bool.not_false]
      · exact marksEnd next (List.mem_append_right _ inSymbols)
      · simp [Token.fitsBefore, isKind] at fits
      · exact marksEnd next (List.mem_append_left _ inMarks)
  | blank isSome isBlank =>
      have marksEnd : ('1' :: ['(', ')', '\x7b', '\x7d', '/'] ++ '.' :: singleSymbols).all
          (fun c => !isSpace c) = true := by decide
      rw [List.all_eq_true] at marksEnd
      rcases starts with ⟨-, isWord⟩ | ⟨isKind, -⟩ | ⟨-, inSymbols⟩ | ⟨-, rfl⟩ | ⟨-, inMarks⟩
      · simp only [Token.endsBefore, isSpace_of_isWordStart isWord, Bool.not_false]
      · simp [Token.fitsBefore, isKind] at fits
      · exact marksEnd next (List.mem_append_right _ inSymbols)
      · exact marksEnd '1' (by decide)
      · exact marksEnd next (List.mem_append_left _ (List.mem_cons_of_mem _ inMarks))
  | @symbol c isSingle =>
      have noFollower : continues c next = false := by
        rw [Bool.eq_false_iff]
        intro goesOn
        have follows := mem_followers goesOn
        have others : followers.all (fun c => !(isWordStart c || isSpace c ||
            ['1', '(', ')', '\x7b', '\x7d', '/'].contains c)) = true := by decide
        have isOther := List.all_eq_true.mp others next follows
        simp only [Bool.not_eq_true', Bool.or_eq_false_iff, List.contains_eq_mem,
          decide_eq_false_iff_not] at isOther
        obtain ⟨⟨noWord, noBlank⟩, noMark⟩ := isOther
        rcases starts with ⟨-, isWord⟩ | ⟨-, isBlank⟩ | ⟨isKind, -⟩ | ⟨-, rfl⟩ | ⟨-, inMarks⟩
        · rw [noWord] at isWord
          cases isWord
        · rw [noBlank] at isBlank
          cases isBlank
        · simp [Token.fitsBefore, isKind, singleton_ne_ellipsis, isNext, goesOn] at fits
        · exact noMark List.mem_cons_self
        · exact noMark (List.mem_cons_of_mem _ inMarks)
      simp [Token.endsBefore, noFollower]
  | ellipsis => rfl
  | opening => rfl
  | closing => rfl
  | comment => rfl
  | one =>
      have isText : behind.text = ")" := by simpa [Token.fitsBefore] using fits
      rw [isText] at isNext
      obtain rfl : ')' = next := Option.some.inj isNext
      rfl

/-! ## Whole files -/

/-- Plain tokens of which none goes on with the next. -/
inductive ArePlain : List Token → Prop where
  | nil : ArePlain []
  | cons {token : Token} {rest : List Token} (plain : token.IsPlain)
      (fits : rest.head?.all token.fitsBefore = true) (others : ArePlain rest) :
      ArePlain (token :: rest)

/-- The tokens that are the same in all generated code. -/
def fixedTokens : List Token :=
  singleSymbols.map (fun c => ⟨.symbol, String.singleton c⟩) ++
    [⟨.symbol, "..."⟩, ⟨.opening .round, "("⟩, ⟨.closing .round, ")"⟩, ⟨.opening .curly, "\x7b"⟩,
      ⟨.closing .curly, "\x7d"⟩, ⟨.literal, "1"⟩]

/-- A test for plain tokens that are no comments. -/
def Token.looksPlain (token : Token) : Bool :=
  match token.kind with
  | .word => isIdentifier token.text
  | .blank => token.text != "" && token.text.toList.all isSpace
  | _ => fixedTokens.contains token

theorem Token.isPlain_of_looksPlain {token : Token} (looks : token.looksPlain = true) :
    token.IsPlain := by
  have fixed : ∀ token ∈ fixedTokens, token.IsPlain := by
    intro token member
    rcases List.mem_append.mp member with isSymbol | isOther
    · obtain ⟨c, isSingle, rfl⟩ := List.mem_map.mp isSymbol
      exact .symbol isSingle
    · simp only [List.mem_cons, List.not_mem_nil, or_false] at isOther
      rcases isOther with rfl | rfl | rfl | rfl | rfl | rfl
      · exact .ellipsis
      · exact @IsPlain.opening '(' .round (by decide)
      · exact @IsPlain.closing ')' .round (by decide)
      · exact @IsPlain.opening '\x7b' .curly (by decide)
      · exact @IsPlain.closing '\x7d' .curly (by decide)
      · exact .one
  obtain ⟨kind, text⟩ := token
  unfold Token.looksPlain at looks
  split at looks
  · rename_i isKind
    obtain rfl : kind = .word := isKind
    exact .word looks
  · rename_i isKind
    obtain rfl : kind = .blank := isKind
    rw [Bool.and_eq_true, bne_iff_ne, List.all_eq_true] at looks
    exact .blank looks.1 looks.2
  · exact fixed _ (List.contains_iff_mem.mp looks)

/-- The tokens are plain, and neither goes on with the next one or the last of them with what
stands behind. -/
def plainBefore : List Token → Option Token → Bool
  | [], _ => true
  | [last], behind => last.looksPlain && behind.all last.fitsBefore
  | token :: next :: rest, behind =>
    token.looksPlain && token.fitsBefore next && plainBefore (next :: rest) behind

theorem ArePlain.prepend {rest : List Token} (others : ArePlain rest) (tokens : List Token)
    (looks : plainBefore tokens rest.head? = true) : ArePlain (tokens ++ rest) := by
  induction tokens with
  | nil => exact others
  | cons token more inductionHypothesis =>
      cases more with
      | nil =>
          rw [plainBefore, Bool.and_eq_true] at looks
          exact .cons (Token.isPlain_of_looksPlain looks.1) looks.2 others
      | cons next behind =>
          rw [plainBefore, Bool.and_eq_true, Bool.and_eq_true] at looks
          exact .cons (Token.isPlain_of_looksPlain looks.1.1) looks.1.2
            (inductionHypothesis looks.2)

/-- Such tokens are read one after the other. -/
theorem scanFrom_plain {tokens : List Token} (plain : ArePlain tokens) :
    ∀ (state : LexerState) (done : List Token) (steps : List Char), state.InCode →
      (tokensText tokens).toList.length ≤ steps.length →
      scanFrom state done steps (tokensText tokens).toList = done.reverse ++ tokens := by
  induction plain with
  | nil =>
      intro state done steps _ _
      cases steps <;> simp [tokensText, Text.concat, Text.joinWith, scanFrom]
  | @cons token rest isPlain fits others inductionHypothesis =>
      intro state done steps inCode isLong
      have ends : ∀ next, (tokensText rest).toList.head? = some next →
          token.endsBefore next = true := by
        intro next isNext
        cases others with
        | nil => cases isNext
        | cons behindPlain _ _ =>
            rw [tokensText_cons, String.toList_append, List.head?_append_of_ne_nil _
              behindPlain.text_ne] at isNext
            exact isPlain.endsBefore behindPlain fits isNext
      obtain ⟨first, more, next, isText, nextInCode, isRead⟩ :=
        isPlain.readBefore ends state inCode
      have isWhole : (tokensText (token :: rest)).toList =
          first :: (more ++ (tokensText rest).toList) := by
        rw [tokensText_cons, String.toList_append, isText, List.cons_append]
      rw [isWhole] at isLong ⊢
      cases steps with
      | nil => cases isLong
      | cons step steps =>
          have isLongBehind : (tokensText rest).toList.length ≤ steps.length := by
            simp only [List.length_cons, List.length_append] at isLong
            omega
          unfold scanFrom
          rw [isRead]
          dsimp only
          rw [inductionHypothesis next (token :: done) steps nextInCode isLongBehind,
            List.reverse_cons, List.append_assoc]
          rfl

/-- The opening tag of a file. -/
def openingTag : Token := ⟨.outside, "<?php"⟩

theorem scan_plain {tokens : List Token} (plain : ArePlain tokens) :
    scan (tokensText (openingTag :: tokens)) = openingTag :: tokens := by
  have isText : (tokensText (openingTag :: tokens)).toList =
      '<' :: '?' :: 'p' :: 'h' :: 'p' :: (tokensText tokens).toList := by
    rw [tokensText_cons, String.toList_append]
    rfl
  have isTag : spanLeading ('<' :: '?' :: 'p' :: 'h' :: 'p' :: (tokensText tokens).toList) =
      (['<', '?', 'p', 'h', 'p'], (tokensText tokens).toList) := by
    simp [spanLeading, outsideFrom, tagLength, Span.ofLength]
  have inCode : LexerState.InCode ⟨.code, []⟩ := ⟨rfl, List.forall_mem_nil _⟩
  unfold scan
  rw [isText]
  unfold scanFrom lexeme
  dsimp only
  rw [isTag]
  exact scanFrom_plain plain _ _ _ inCode (by simp only [List.length_cons]; omega)

end FactoryProxy.Php
