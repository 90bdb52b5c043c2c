import FactoryProxy.Name.Basic
import FactoryProxy.Php.Expression
import FactoryProxy.Php.Lexer

/-!
Contract: comments, and code with comments put into it.

Comments are told by their marks wherever code is read, so a text that holds one holds a
slash or a hash.

Owns: how a comment starts, the insertion of comments into tokens, texts and expressions, and
what an insertion leaves as it is.
-/

namespace FactoryProxy.Php

/-! ## The start of a comment -/

namespace Span

theorem prefix_walk (width : List Char → Nat) (owed : Nat) (done text : List Char) :
    done.reverse <+: (walk width owed done text).1 := by
  induction text generalizing owed done with
  | nil => exact List.prefix_rfl
  | cons c rest inductionHypothesis =>
      have further : ∀ more, done.reverse <+: (walk width more (c :: done) rest).1 := by
        intro more
        have longer := inductionHypothesis more (c :: done)
        rw [List.reverse_cons] at longer
        exact (List.prefix_append _ _).trans longer
      unfold walk
      cases owed with
      | succ more => exact further more
      | zero =>
          cases width (c :: rest) with
          | zero => exact List.prefix_rfl
          | succ more => exact further more

/-- A step of some width takes at least the first character. -/
theorem head?_bySteps {width : List Char → Nat} {c : Char} {rest : List Char}
    (isWide : width (c :: rest) ≠ 0) : (bySteps width (c :: rest)).1.head? = some c := by
  obtain ⟨more, isWidth⟩ := Nat.exists_eq_succ_of_ne_zero isWide
  obtain ⟨behind, isWhole⟩ := prefix_walk width more [c] rest
  unfold bySteps walk
  rw [isWidth]
  dsimp only
  rw [← isWhole]
  rfl

end Span

/-- The marks with which comments start. -/
def commentMarks : List Char := ['/', '#']

theorem head?_spanLineComment {mark : Char} (rest : List Char) (isMark : mark ∈ commentMarks) :
    (spanLineComment (mark :: rest)).1.head? = some mark := by
  have isWide : lineStep (mark :: rest) ≠ 0 := by
    simp only [commentMarks, List.mem_cons, List.not_mem_nil, or_false] at isMark
    rcases isMark with rfl | rfl <;> simp [lineStep, isLineBreak]
  unfold spanLineComment
  split
  · rename_i isHash
    rw [(List.cons.inj isHash).1]
    rfl
  · exact Span.head?_bySteps isWide

theorem kind_symbolLexeme (state : LexerState) (first : Char) (rest : List Char) :
    (symbolLexeme state first rest).token.kind ≠ .comment := by
  unfold symbolLexeme
  split <;> exact TokenKind.noConfusion

theorem kind_quotedLexeme (state : LexerState) (mark : Char) (opened : Span) :
    (quotedLexeme state mark opened).token.kind ≠ .comment := by
  unfold quotedLexeme
  split <;> exact TokenKind.noConfusion

theorem kind_templateLexeme (state : LexerState) (delimiter : Delimiter) (atStart : Bool)
    (text : List Char) :
    (templateLexeme state delimiter atStart text).token.kind ≠ .comment := by
  unfold templateLexeme
  split
  · exact TokenKind.noConfusion
  · split <;> exact TokenKind.noConfusion

theorem head?_codeLexeme {state : LexerState} {first : Char} {rest : List Char}
    (isComment : (codeLexeme state first rest).token.kind = .comment) :
    ∃ mark ∈ commentMarks,
      (codeLexeme state first rest).token.text.toList.head? = some mark := by
  have ofLine : ∀ {mark : Char} (behind : List Char), mark ∈ commentMarks →
      ∃ found ∈ commentMarks, (Lexeme.ofSpan .comment state
        (spanLineComment (mark :: behind))).token.text.toList.head? = some found := by
    intro mark behind isMark
    refine ⟨mark, isMark, ?_⟩
    show (String.ofList (spanLineComment (mark :: behind)).1).toList.head? = some mark
    rw [String.toList_ofList, head?_spanLineComment behind isMark]
  revert isComment
  -- Comments are the cases 6 to 8: behind a hash, two slashes, or a slash and a star.
  fun_cases codeLexeme state first rest with
  | case1 => exact fun isComment => absurd isComment (kind_quotedLexeme _ _ _)
  | case6 rest => exact fun _ => ofLine rest (by decide)
  | case7 rest => exact fun _ => ofLine ('/' :: rest) (by decide)
  | case8 =>
      intro _
      refine ⟨'/', by decide, ?_⟩
      exact congrArg List.head? String.toList_ofList
  | case11 | case12 => exact fun isComment => absurd isComment (kind_symbolLexeme _ _ _)
  | case2 | case3 | case4 | case5 | case9 | case10 => exact fun isComment => nomatch isComment

theorem head?_lexeme {state : LexerState} {first : Char} {rest : List Char}
    (isComment : (lexeme state first rest).token.kind = .comment) :
    ∃ mark ∈ commentMarks, (lexeme state first rest).token.text.toList.head? = some mark := by
  revert isComment
  unfold lexeme
  split
  · exact fun isComment => nomatch isComment
  · exact head?_codeLexeme
  · exact fun isComment => absurd isComment (kind_templateLexeme _ _ _ _)

/-- Every token is one read already or is read at some place of the text. -/
theorem exists_lexeme_of_mem_scanFrom {token : Token} {state : LexerState} {done : List Token}
    {steps text : List Char} (member : token ∈ scanFrom state done steps text) :
    token ∈ done ∨ ∃ place first rest, token = (lexeme place first rest).token := by
  induction steps generalizing state done text with
  | nil =>
      cases text <;> exact .inl (List.mem_reverse.mp member)
  | cons _ steps inductionHypothesis =>
      cases text with
      | nil => exact .inl (List.mem_reverse.mp member)
      | cons first rest =>
          rcases inductionHypothesis member with earlier | later
          · rcases List.mem_cons.mp earlier with isNext | isDone
            · exact .inr ⟨state, first, rest, isNext⟩
            · exact .inl isDone
          · exact .inr later

/-! ## Comments -/

/-- The token stands as a comment in some file. -/
def Token.IsComment (token : Token) : Prop :=
  token.kind = .comment ∧ ∃ source, token ∈ scan source

/-- A comment starts with one of the marks. -/
theorem Token.IsComment.mark_mem {token : Token} (isComment : token.IsComment) :
    ∃ mark ∈ commentMarks, mark ∈ token.text.toList := by
  obtain ⟨ofKind, source, member⟩ := isComment
  rcases exists_lexeme_of_mem_scanFrom member with none | ⟨place, first, rest, isLexeme⟩
  · cases none
  · subst isLexeme
    obtain ⟨mark, isMark, isFirst⟩ := head?_lexeme ofKind
    exact ⟨mark, isMark, List.mem_of_head? isFirst⟩

/-- The same tokens with any number of comments put among them. -/
inductive Commented : List Token → List Token → Prop where
  | nil : Commented [] []
  | kept {bare commented : List Token} (token : Token) (behind : Commented bare commented) :
      Commented (token :: bare) (token :: commented)
  | inserted {bare commented : List Token} {comment : Token} (isComment : comment.IsComment)
      (behind : Commented bare commented) : Commented bare (comment :: commented)

namespace Commented

variable {bare commented : List Token}

theorem refl (tokens : List Token) : Commented tokens tokens := by
  induction tokens with
  | nil => exact .nil
  | cons token _ inductionHypothesis => exact .kept token inductionHypothesis

theorem subset (isCommented : Commented bare commented) : bare ⊆ commented := by
  induction isCommented with
  | nil => exact List.Subset.refl _
  | kept token _ inductionHypothesis => exact List.cons_subset_cons token inductionHypothesis
  | inserted _ _ inductionHypothesis => exact List.subset_cons_of_subset _ inductionHypothesis

/-- Tokens with comments among them are the same tokens, or have a comment. -/
theorem eq_or_exists_comment (isCommented : Commented bare commented) :
    commented = bare ∨ ∃ comment ∈ commented, comment.IsComment := by
  induction isCommented with
  | nil => exact .inl rfl
  | kept token _ inductionHypothesis =>
      rcases inductionHypothesis with same | ⟨comment, member, isComment⟩
      · exact .inl (congrArg (token :: ·) same)
      · exact .inr ⟨comment, List.mem_cons_of_mem _ member, isComment⟩
  | inserted isComment _ _ => exact .inr ⟨_, List.mem_cons_self, isComment⟩

end Commented

/-! ## Texts with comments -/

/-- The text is that of the same tokens with comments put among them. -/
def TextCommented (bare commented : String) : Prop :=
  ∃ tokens more, bare = Expression.tokensText tokens ∧
    commented = Expression.tokensText more ∧ Commented tokens more

theorem textCommented_refl (text : String) : TextCommented text text := by
  have isText : text = Expression.tokensText [⟨.word, text⟩] := by
    simp [Expression.tokensText, Text.concat, Text.joinWith]
  exact ⟨_, _, isText, isText, Commented.refl _⟩

theorem mem_tokensText_iff {c : Char} {tokens : List Token} :
    c ∈ (Expression.tokensText tokens).toList ↔ ∃ token ∈ tokens, c ∈ token.text.toList := by
  induction tokens with
  | nil => simp [Expression.tokensText, Text.concat, Text.joinWith]
  | cons first rest inductionHypothesis =>
      have isText : Expression.tokensText (first :: rest) =
          first.text ++ Expression.tokensText rest := Text.concat_cons _ _
      rw [isText, String.toList_append, List.mem_append, inductionHypothesis]
      simp

/-- Comments take no character away. -/
theorem TextCommented.subset {bare commented : String} (isCommented : TextCommented bare commented) :
    bare.toList ⊆ commented.toList := by
  obtain ⟨tokens, more, rfl, rfl, among⟩ := isCommented
  intro c member
  obtain ⟨token, isToken, inside⟩ := mem_tokensText_iff.mp member
  exact mem_tokensText_iff.mpr ⟨token, among.subset isToken, inside⟩

/-- A text that comments change has a slash or a hash. -/
theorem TextCommented.mark_mem {bare commented : String}
    (isCommented : TextCommented bare commented) (isOther : commented ≠ bare) :
    ∃ mark ∈ commentMarks, mark ∈ commented.toList := by
  obtain ⟨tokens, more, rfl, rfl, among⟩ := isCommented
  rcases among.eq_or_exists_comment with same | ⟨comment, member, isComment⟩
  · exact absurd (congrArg Expression.tokensText same) isOther
  · obtain ⟨mark, isMark, inside⟩ := isComment.mark_mem
    exact ⟨mark, isMark, mem_tokensText_iff.mpr ⟨comment, member, inside⟩⟩

/-! ## Expressions with comments -/

/-- The same name with comments put around its separators, if it has any. -/
def NameCommented (bare commented : String) : Prop :=
  TextCommented bare commented ∧ (Name.separator ∉ bare.toList → commented = bare)

namespace Expression

mutual

/-- The same expression with comments put between its tokens. -/
inductive Commented : Expression → Expression → Prop where
  | leaf (token : Token) : Commented (.leaf token) (.leaf token)
  | name {bare commented : String} (inName : NameCommented bare commented) :
      Commented (.name bare) (.name commented)
  | constantAccess {owner other : Expression} {access more : String}
      (inOwner : Commented owner other) (inAccess : TextCommented access more) :
      Commented (.constantAccess owner access) (.constantAccess other more)
  | instantiation {intro more : List Token} {className other : String}
      {arguments others : List Expression} (inIntro : Php.Commented intro more)
      (inName : NameCommented className other) (inArguments : CommentedIn arguments others) :
      Commented (.instantiation intro className arguments) (.instantiation more other others)
  | compound {parts others : List Expression} (inParts : CommentedIn parts others) :
      Commented (.compound parts) (.compound others)

/-- The same expressions in order with comments put among them and into them. -/
inductive CommentedIn : List Expression → List Expression → Prop where
  | nil : CommentedIn [] []
  | cons {part other : Expression} {rest others : List Expression} (inPart : Commented part other)
      (inRest : CommentedIn rest others) : CommentedIn (part :: rest) (other :: others)
  | inserted {comment : Token} {parts others : List Expression} (isComment : comment.IsComment)
      (behind : CommentedIn parts others) : CommentedIn parts (.leaf comment :: others)

end

end Expression

end FactoryProxy.Php
