import FactoryProxy.Interface.Printer
import FactoryProxy.Proofs.Php.InterfaceFiles
import FactoryProxy.Proofs.Php.PlainPhrases

/-!
Contract: files with one interface as texts.

A file is cut into its tokens again if the names and types in it are phrases and its comment
does not hold the mark that ends comments. Its text is that of the printer: the parameters are
printed as they are declared, and what stands around them is fixed.

Owns: plain parameters and lists of them, plain files, and the texts of both.
Does not own: how the tokens are read.
-/

namespace FactoryProxy.Php

open Expression (tokensText)

/-! ## Parameters -/

namespace WrittenParameter

variable {written : WrittenParameter} {list : List WrittenParameter}

/-- The marks and the name are a phrase. -/
theorem isPhrase_namedTokens (isNamed : isIdentifier written.name = true) :
    IsPhrase written.namedTokens := by
  have startsSymbol : ∃ first rest, written.namedTokens = first :: rest ∧ first.kind = .symbol := by
    obtain ⟨first, rest, isTokens, member⟩ := Grammar.head_namedTokens written
    refine ⟨first, rest, isTokens, ?_⟩
    simp only [List.mem_cons, List.not_mem_nil, or_false] at member
    rcases member with rfl | rfl | rfl <;> rfl
  obtain ⟨first, rest, isTokens, isSymbol⟩ := startsSymbol
  refine ⟨⟨first, rest, isTokens, .inr isSymbol⟩, fun {behind} others ends => ?_⟩
  have fromName : ArePlain (.word written.name :: behind) := .word isNamed others ends
  unfold namedTokens markedTokens ifPresent
  rw [← Token.word]
  cases written.byReference <;> cases written.variadic
  · exact fromName.prepend [.dollar] rfl
  · exact fromName.prepend [.ellipsis, .dollar] rfl
  · exact fromName.prepend [.ampersand, .dollar] rfl
  · exact fromName.prepend [.ampersand, .ellipsis, .dollar] rfl

theorem isPhrase_tokens (isNamed : isIdentifier written.name = true)
    (isHint : ∀ hint ∈ written.hint, IsPhrase hint) : IsPhrase written.tokens := by
  have named := isPhrase_namedTokens isNamed
  unfold tokens
  cases hasHint : written.hint with
  | none => exact named
  | some hint =>
      have phrase := isHint hint hasHint
      obtain ⟨first, rest, isTokens, isKind⟩ := phrase.starts
      refine ⟨⟨first, rest ++ .space :: written.namedTokens, by simp [isTokens], isKind⟩, ?_⟩
      intro behind others ends
      simpa using phrase.plain (named.spaced others ends) (endsWord_cons (by decide) _)

/-- Parameters with commas between them are a phrase. -/
theorem isPhrase_listTokens (arePhrases : ∀ written ∈ list, IsPhrase written.tokens)
    (isSome : list ≠ []) : IsPhrase (listTokens list) := by
  induction list with
  | nil => exact absurd rfl isSome
  | cons written rest inductionHypothesis =>
      obtain ⟨phrase, areRest⟩ := List.forall_mem_cons.mp arePhrases
      cases rest with
      | nil => exact phrase
      | cons next others =>
          have behindComma := inductionHypothesis areRest (List.cons_ne_nil _ _)
          obtain ⟨first, more, isTokens, isKind⟩ := phrase.starts
          refine ⟨⟨first, more ++ .comma :: .space :: listTokens (next :: others),
            by simp [listTokens, isTokens], isKind⟩, fun {behind} isPlain ends => ?_⟩
          have fromComma : ArePlain (.comma :: .space :: (listTokens (next :: others) ++ behind)) :=
            (behindComma.spaced isPlain ends).prepend [.comma] rfl
          simpa [listTokens] using phrase.plain fromComma (endsWord_cons (by decide) _)

/-- What the parameter declares. -/
def declaration (written : WrittenParameter) : ParameterDeclaration :=
  ⟨written.name, written.hint.map tokensText, none, written.byReference, written.variadic⟩

theorem tokensText_ifPresent (present : Bool) (token : Token) :
    tokensText (ifPresent present token) = if present then token.text else "" := by
  cases present <;> rfl

/-- A parameter is written as it is printed. -/
theorem tokensText_tokens (written : WrittenParameter) :
    tokensText written.tokens = Interface.printParameter written.declaration := by
  have ofNamed : tokensText written.namedTokens =
      Interface.printParameter { written.declaration with typeHint := none } := by
    unfold namedTokens markedTokens Interface.printParameter declaration
    rw [tokensText_append, tokensText_append, tokensText_ifPresent, tokensText_ifPresent,
      tokensText_cons, tokensText_singleton]
    simp only [String.append_assoc, String.empty_append, String.append_empty]
    rfl
  unfold tokens
  cases isHint : written.hint with
  | none =>
      rw [ofNamed]
      simp [declaration, isHint]
  | some hint =>
      rw [tokensText_append, tokensText_cons, ofNamed]
      simp [declaration, isHint, Interface.printParameter, Token.space, String.append_assoc]

theorem tokensText_listTokens (list : List WrittenParameter) :
    tokensText (listTokens list) =
      Text.joinWith ", " ((list.map declaration).map Interface.printParameter) := by
  induction list with
  | nil => rfl
  | cons written rest inductionHypothesis =>
      cases rest with
      | nil => exact tokensText_tokens written
      | cons next others =>
          rw [listTokens, tokensText_append, tokensText_cons, tokensText_cons,
            inductionHypothesis, tokensText_tokens]
          have separator : ", " = Token.comma.text ++ Token.space.text := by decide
          simp only [List.map_cons, Text.joinWith, separator, String.append_assoc]

end WrittenParameter

/-- A parameter of no type or a builtin one, without a default value. -/
structure IsPlainParameter (parameter : ParameterDeclaration) : Prop where
  isNamed : isIdentifier parameter.name = true
  isHint : ∀ hint, parameter.typeHint = some hint → IsBuiltinHint hint
  noDefault : parameter.defaultValue = none

/-- Such a parameter can be written. -/
theorem IsPlainParameter.written {parameter : ParameterDeclaration}
    (plain : IsPlainParameter parameter) :
    ∃ written : WrittenParameter, written.declaration = parameter ∧ written.Valid ∧
      IsPhrase written.tokens := by
  obtain ⟨name, typeHint, defaultValue, byReference, variadic⟩ := parameter
  obtain ⟨isNamed, isHint, rfl⟩ := plain
  cases typeHint with
  | none =>
      exact ⟨⟨none, byReference, variadic, name⟩, rfl, nofun,
        WrittenParameter.isPhrase_tokens isNamed nofun⟩
  | some hint =>
      obtain ⟨tokens, isText, isType, phrase, noVisibility⟩ := (isHint hint rfl).written
      refine ⟨⟨some tokens, byReference, variadic, name⟩, ?_, ?_, ?_⟩
      · rw [← isText]
        rfl
      · rintro _ ⟨⟩
        exact ⟨isType, noVisibility⟩
      · refine WrittenParameter.isPhrase_tokens isNamed ?_
        rintro _ ⟨⟩
        exact phrase

theorem exists_writtenList {parameters : List ParameterDeclaration}
    (plain : ∀ parameter ∈ parameters, IsPlainParameter parameter) :
    ∃ list : List WrittenParameter, list.map WrittenParameter.declaration = parameters ∧
      ∀ written ∈ list, written.Valid ∧ IsPhrase written.tokens := by
  induction parameters with
  | nil => exact ⟨[], rfl, List.forall_mem_nil _⟩
  | cons parameter rest inductionHypothesis =>
      obtain ⟨isPlain, arePlain⟩ := List.forall_mem_cons.mp plain
      obtain ⟨written, isDeclared, areGood⟩ := isPlain.written
      obtain ⟨list, areDeclared, areAll⟩ := inductionHypothesis arePlain
      exact ⟨written :: list, by rw [List.map_cons, isDeclared, areDeclared],
        List.forall_mem_cons.mpr ⟨areGood, areAll⟩⟩

/-! ## Methods -/

namespace WrittenMethod

/-- Names and types are phrases, and the comment ends at its mark. -/
structure Plain (method : WrittenMethod) : Prop where
  isFree : ∀ text ∈ method.comment, ¬ HoldsEnd text.toList
  isNamed : isIdentifier method.name = true
  areParameters : ∀ written ∈ method.parameters, IsPhrase written.tokens
  isResult : IsPhrase method.result

variable {method : WrittenMethod} {behind : List Token}

/-- The method from its parentheses on. -/
def signatureTokens (method : WrittenMethod) : List Token :=
  ⟨.opening .round, "("⟩ :: (WrittenParameter.listTokens method.parameters ++
    (⟨.closing .round, ")"⟩ :: (Grammar.methodEnd method.result ++ Grammar.lineEnd)))

theorem Plain.signature (plain : method.Plain) (others : ArePlain behind)
    (fits : behind.head?.all (Token.fitsBefore ⟨.blank, "\n"⟩) = true) :
    ArePlain (method.signatureTokens ++ behind) := by
  have ended : ArePlain (.semicolon :: ⟨.blank, "\n"⟩ :: behind) :=
    .cons (Token.isPlain_of_looksPlain (by decide)) rfl
      (.cons (Token.isPlain_of_looksPlain (by decide)) fits others)
  have result : ArePlain (⟨.closing .round, ")"⟩ :: .colon :: .space ::
      (method.result ++ .semicolon :: ⟨.blank, "\n"⟩ :: behind)) :=
    (plain.isResult.spaced ended (endsWord_cons (by decide) _)).prepend
      [⟨.closing .round, ")"⟩, .colon] rfl
  have listed : ArePlain (WrittenParameter.listTokens method.parameters ++
      ⟨.closing .round, ")"⟩ :: .colon :: .space ::
        (method.result ++ .semicolon :: ⟨.blank, "\n"⟩ :: behind)) := by
    by_cases isEmpty : method.parameters = []
    · rw [isEmpty]
      exact result
    · exact (WrittenParameter.isPhrase_listTokens plain.areParameters isEmpty).plain result
        (endsWord_cons (by decide) _)
  have opened : ArePlain (⟨.opening .round, "("⟩ ::
      (WrittenParameter.listTokens method.parameters ++ ⟨.closing .round, ")"⟩ :: .colon ::
        .space :: (method.result ++ .semicolon :: ⟨.blank, "\n"⟩ :: behind))) :=
    .cons (Token.isPlain_of_looksPlain (by decide)) (Option.all_eq_true _ _ |>.mpr fun _ _ => rfl)
      listed
  simpa [signatureTokens, Grammar.methodEnd, Grammar.lineEnd] using opened

theorem Plain.tokens (plain : method.Plain) (others : ArePlain behind)
    (fits : behind.head?.all (Token.fitsBefore ⟨.blank, "\n"⟩) = true) :
    ArePlain (method.tokens ++ behind) := by
  have isWhole : method.tokens ++ behind = method.lead ++ ([.word "public", .space,
      .word "function", .space] ++ .word method.name :: (method.signatureTokens ++ behind)) := by
    simp [WrittenMethod.tokens, Grammar.methodHead, signatureTokens]
  have named : ArePlain (.word method.name :: (method.signatureTokens ++ behind)) :=
    .word plain.isNamed (plain.signature others fits) (endsWord_cons (by decide) _)
  have head : ArePlain ([.word "public", .space, .word "function", .space] ++
      .word method.name :: (method.signatureTokens ++ behind)) := named.prepend _ rfl
  rw [isWhole]
  unfold lead
  cases isComment : method.comment with
  | none => exact head.prepend [⟨.blank, "\n\t"⟩] rfl
  | some text =>
      have commented : ArePlain (blockComment text :: ⟨.blank, "\n\t"⟩ :: _) :=
        .cons (.comment (plain.isFree text isComment)) rfl
          (head.prepend [⟨.blank, "\n\t"⟩] rfl)
      exact commented.prepend [⟨.blank, "\n\t"⟩] rfl

/-- The method is written as it is printed, with its comment above it. -/
theorem text_eq (method : WrittenMethod) :
    tokensText method.tokens =
      "\n\t" ++ method.comment.elim "" (fun text => "/*" ++ text ++ "*/\n\t") ++
        "public function " ++ method.name ++ "(" ++
        Text.joinWith ", " ((method.parameters.map WrittenParameter.declaration).map
          Interface.printParameter) ++
        "): " ++ tokensText method.result ++ ";\n" := by
  have isLead : "\n\t" ++ method.comment.elim "" (fun text => "/*" ++ text ++ "*/\n\t") =
      tokensText method.lead := by
    unfold lead
    cases method.comment with
    | none => rfl
    | some text =>
        have closing : "*/\n\t" = "*/" ++ "\n\t" := by decide
        rw [tokensText_cons, tokensText_cons, tokensText_singleton, Option.elim_some, closing]
        simp only [blockComment, String.append_assoc]
  have isHead : "public function " =
      tokensText [.word "public", .space, .word "function", .space] := by decide
  have isOpened : tokensText [⟨.opening .round, "("⟩] = "(" := rfl
  have isReturned : "): " = tokensText [⟨.closing .round, ")"⟩, .colon, .space] := by decide
  have isEnded : ";\n" = tokensText [.semicolon, ⟨.blank, "\n"⟩] := by decide
  have isNamed : method.name = tokensText [.word method.name] := rfl
  have isWhole : method.tokens =
      method.lead ++ [.word "public", .space, .word "function", .space] ++ [.word method.name] ++
      [⟨.opening .round, "("⟩] ++ WrittenParameter.listTokens method.parameters ++
      [⟨.closing .round, ")"⟩, .colon, .space] ++ method.result ++
      [.semicolon, ⟨.blank, "\n"⟩] := by
    simp [tokens, Grammar.methodHead, Grammar.methodEnd, Grammar.lineEnd]
  rw [isWhole, isLead, isHead, isReturned, isEnded, ← WrittenParameter.tokensText_listTokens]
  simp only [tokensText_append, isOpened, ← isNamed]

end WrittenMethod

/-! ## Files -/

namespace InterfaceFile

/-- Names are phrases, and the method is plain. -/
structure Plain (file : InterfaceFile) : Prop where
  isNamespace : IsPhrase file.namespaceName
  isNamed : isIdentifier file.name = true
  areParents : ∀ parent ∈ file.parent, IsPhrase parent
  isMethod : ∀ method ∈ file.method, method.Plain

variable {file : InterfaceFile} {behind : List Token}

/-- What stands between the opening tag and the name of the namespace. -/
def leadTokens : List Token :=
  [⟨.blank, "\n"⟩, .word "declare", ⟨.opening .round, "("⟩, .word "strict_types", ⟨.symbol, "="⟩,
    ⟨.literal, "1"⟩, ⟨.closing .round, ")"⟩, .semicolon, ⟨.blank, "\n\n"⟩, .word "namespace"]

/-- What stands between the namespace and the name of the interface. -/
def betweenTokens : List Token :=
  [.semicolon, ⟨.blank, "\n\n"⟩, .word "interface", .space]

/-- The file from the braces of the interface on. -/
def bodyTokens (file : InterfaceFile) : List Token :=
  ⟨.blank, "\n"⟩ :: ⟨.opening .curly, "\x7b"⟩ ::
    (file.body ++ [⟨.closing .curly, "\x7d"⟩, ⟨.blank, "\n"⟩])

theorem tokens_eq (file : InterfaceFile) :
    file.tokens = openingTag :: (leadTokens ++ .space :: (file.namespaceName ++
      (betweenTokens ++ .word file.name :: (Grammar.heritageTokens file.parent ++
        file.bodyTokens)))) := by
  simp [tokens, head, setting, gap, leadTokens, betweenTokens, bodyTokens,
    Grammar.namespaceTokens, Grammar.interfaceTokens, Grammar.interfaceHead, Grammar.lineEnd]

theorem Plain.bodyTokens (plain : file.Plain) : ArePlain file.bodyTokens := by
  have ended : ArePlain [⟨.closing .curly, "\x7d"⟩, ⟨.blank, "\n"⟩] :=
    ArePlain.nil.prepend [⟨.closing .curly, "\x7d"⟩, ⟨.blank, "\n"⟩] rfl
  have inBraces : ArePlain (file.body ++ [⟨.closing .curly, "\x7d"⟩, ⟨.blank, "\n"⟩]) := by
    unfold body
    cases isMethod : file.method with
    | none => exact ended.prepend Grammar.lineEnd rfl
    | some method => exact (plain.isMethod method isMethod).tokens ended rfl
  have opened : ArePlain (⟨.opening .curly, "\x7b"⟩ ::
      (file.body ++ [⟨.closing .curly, "\x7d"⟩, ⟨.blank, "\n"⟩])) :=
    .cons (Token.isPlain_of_looksPlain (by decide)) (Option.all_eq_true _ _ |>.mpr fun _ _ => rfl)
      inBraces
  exact opened.prepend [⟨.blank, "\n"⟩] rfl

/-- The text of a plain file is cut into its tokens. -/
theorem Plain.scan (plain : file.Plain) : scan (tokensText file.tokens) = file.tokens := by
  have inherits : ArePlain (Grammar.heritageTokens file.parent ++ file.bodyTokens) ∧
      EndsWord (Grammar.heritageTokens file.parent ++ file.bodyTokens) := by
    cases isParent : file.parent with
    | none => exact ⟨plain.bodyTokens, endsWord_cons (by decide) _⟩
    | some parent =>
        have named := (plain.areParents parent isParent).spaced plain.bodyTokens
          (endsWord_cons (by decide) _)
        exact ⟨named.prepend [.space, .word "extends"] rfl, endsWord_cons (by decide) _⟩
  have isInterface : ArePlain (betweenTokens ++ .word file.name ::
      (Grammar.heritageTokens file.parent ++ file.bodyTokens)) :=
    (ArePlain.word plain.isNamed inherits.1 inherits.2).prepend betweenTokens rfl
  have isNamespace := plain.isNamespace.spaced isInterface (endsWord_cons (by decide) _)
  rw [tokens_eq]
  exact scan_plain (isNamespace.prepend leadTokens rfl)

/-- What is printed between the namespace and the braces. -/
theorem text_eq (file : InterfaceFile) :
    tokensText file.tokens =
      "<?php\ndeclare(strict_types=1);\n\nnamespace " ++ tokensText file.namespaceName ++
        ";\n\ninterface " ++ file.name ++
        file.parent.elim "" (fun parent => " extends " ++ tokensText parent) ++
        "\n\x7b" ++ tokensText file.body ++ "\x7d\n" := by
  have isLead : "<?php\ndeclare(strict_types=1);\n\nnamespace " =
      tokensText (openingTag :: (leadTokens ++ [.space])) := by decide
  have isBetween : ";\n\ninterface " = tokensText betweenTokens := by decide
  have isOpened : "\n\x7b" = tokensText [⟨.blank, "\n"⟩, ⟨.opening .curly, "\x7b"⟩] := by decide
  have isClosed : "\x7d\n" = tokensText [⟨.closing .curly, "\x7d"⟩, ⟨.blank, "\n"⟩] := by decide
  have inherits : file.parent.elim "" (fun parent => " extends " ++ tokensText parent) =
      tokensText (Grammar.heritageTokens file.parent) := by
    have isHeritage : " extends " = tokensText [.space, .word "extends", .space] := by decide
    cases file.parent with
    | none => rfl
    | some parent =>
        rw [Option.elim_some, isHeritage, ← tokensText_append]
        rfl
  have isNamed : file.name = tokensText [.word file.name] := rfl
  have isWhole : file.tokens = openingTag :: (leadTokens ++ [.space]) ++ file.namespaceName ++
      betweenTokens ++ [.word file.name] ++ Grammar.heritageTokens file.parent ++
      [⟨.blank, "\n"⟩, ⟨.opening .curly, "\x7b"⟩] ++ file.body ++
      [⟨.closing .curly, "\x7d"⟩, ⟨.blank, "\n"⟩] := by
    simp [tokens_eq, bodyTokens]
  rw [isWhole, isLead, isBetween, isOpened, isClosed, inherits]
  simp only [tokensText_append, ← isNamed]

end InterfaceFile

end FactoryProxy.Php
