import FactoryProxy.Proofs.Php.PlainTokens
import FactoryProxy.Proofs.Php.ReadInterfaces

/-!
Contract: files with one interface, as tokens and as they are read.

Such a file has a directive, a namespace and an interface with at most one method. The rules of
the language take all of it, so nothing in it is passed over, and it declares the interface alone.

Owns: the tokens of such files and their reading as a whole.
Does not own: the texts of the tokens.
-/

namespace FactoryProxy.Php

open Reader Grouped
open Expression (tokensText)

/-! ## Brackets -/

theorem IsUnion.noBracket {tokens : List Token} (isUnion : IsUnion tokens) :
    ∀ token ∈ tokens, token.isBracket = false := by
  induction isUnion with
  | name isName => exact isName.noBracket
  | more isName quietBefore quietBehind _ inductionHypothesis =>
      simp only [List.forall_mem_append, List.forall_mem_cons]
      exact ⟨isName.noBracket, quietBefore.noBracket, rfl, quietBehind.noBracket,
        inductionHypothesis⟩

theorem IsType.noBracket {tokens : List Token} (isType : IsType tokens) :
    ∀ token ∈ tokens, token.isBracket = false := by
  rcases isType with isUnion | ⟨between, union, rfl, quiet, isUnion⟩
  · exact isUnion.noBracket
  · simp only [List.forall_mem_append, List.forall_mem_cons]
    exact ⟨rfl, quiet.noBracket, isUnion.noBracket⟩

namespace WrittenParameter

theorem Valid.noBracket {written : WrittenParameter} (valid : written.Valid) :
    ∀ token ∈ written.tokens, token.isBracket = false := by
  have ofNamed : ∀ token ∈ written.namedTokens, token.isBracket = false := by
    unfold namedTokens markedTokens ifPresent
    cases written.byReference <;> cases written.variadic <;> simp [Token.isBracket, Token.dollar,
      Token.ellipsis, Token.ampersand]
  unfold tokens
  cases isHint : written.hint with
  | none => exact ofNamed
  | some hint =>
      simp only [List.forall_mem_append, List.forall_mem_cons]
      exact ⟨(valid hint isHint).1.noBracket, rfl, ofNamed⟩

theorem noBracket_listTokens {list : List WrittenParameter}
    (valid : ∀ written ∈ list, written.Valid) :
    ∀ token ∈ listTokens list, token.isBracket = false := by
  induction list with
  | nil => exact List.forall_mem_nil _
  | cons written rest inductionHypothesis =>
      obtain ⟨isValid, areValid⟩ := List.forall_mem_cons.mp valid
      cases rest with
      | nil => exact isValid.noBracket
      | cons next others =>
          simp only [listTokens, List.forall_mem_append, List.forall_mem_cons]
          exact ⟨isValid.noBracket, rfl, rfl, inductionHypothesis areValid⟩

end WrittenParameter

theorem isGroup_of_mem_leaves {line : Nat} {tokens : List Token} {node : Node}
    (member : node ∈ leaves line tokens) (bracket : Bracket) : node.isGroup bracket = false := by
  obtain ⟨place, token, -, rfl⟩ := mem_leaves member
  rfl

/-! ## Insides of brackets -/

/-- What is read as parameters is a regular signature. -/
theorem regular_signature {inner : List Node} {parameters : List ParameterSyntax}
    {added : List Expression}
    (isWhole : whole? Grammar.parameters inner = some (parameters, ⟨added, true⟩)) :
    (Content.ofInner .round inner).signature.regular = true := by
  show (Content.ofRound inner).signature.regular = true
  unfold Content.ofRound
  rw [isWhole]

/-- What consists of members is a regular body of a class. -/
theorem regular_body {inner : List Node} {values : List (Option ConstructorSyntax)}
    (members : Consists Grammar.member inner values) :
    (Content.ofInner .curly inner).body.regular = true := by
  obtain ⟨parts, isRead⟩ := members.throughout Grammar.passOver
  show (throughout Grammar.member Grammar.passOver inner).2.regular = true
  rw [isRead]

/-! ## Methods -/

/-- A method without a body, maybe with a comment above it. -/
structure WrittenMethod where
  comment : Option String
  name : String
  parameters : List WrittenParameter
  result : List Token

namespace WrittenMethod

/-- What stands above the method. -/
def lead (method : WrittenMethod) : List Token :=
  match method.comment with
  | none => [⟨.blank, "\n\t"⟩]
  | some text => [⟨.blank, "\n\t"⟩, blockComment text, ⟨.blank, "\n\t"⟩]

def tokens (method : WrittenMethod) : List Token :=
  (method.lead ++ Grammar.methodHead method.name) ++
    ((⟨.opening .round, "("⟩ :: WrittenParameter.listTokens method.parameters ++
      [⟨.closing .round, ")"⟩]) ++ (Grammar.methodEnd method.result ++ Grammar.lineEnd))

/-- The parameters and the result have types, and the method is no constructor. -/
structure Valid (method : WrittenMethod) : Prop where
  areParameters : ∀ written ∈ method.parameters, written.Valid
  isResult : IsType method.result
  isOther : Text.fold method.name ≠ "__construct"

theorem quiet_lead (method : WrittenMethod) : IsQuiet method.lead := by
  unfold lead
  cases method.comment with
  | none => decide
  | some text => simp [IsQuiet, blockComment]

/-- The method is read as a member, and its parameters as they are written. -/
theorem Valid.reads {method : WrittenMethod} (valid : method.Valid) (line : Nat) :
    ∃ nodes behind, Gathers line method.tokens nodes behind ∧
      Consists Grammar.member nodes [none] ∧
      ∀ node ∈ nodes, node.isGroup .round = true → ∃ added,
        whole? Grammar.parameters node.inner =
          some (method.parameters.map WrittenParameter.read, ⟨added, true⟩) := by
  have headFree : ∀ token ∈ method.lead ++ Grammar.methodHead method.name,
      token.isBracket = false := by
    simp only [List.forall_mem_append, Grammar.methodHead, List.forall_mem_cons]
    exact ⟨method.quiet_lead.noBracket, rfl, rfl, rfl, rfl, rfl, List.forall_mem_nil _⟩
  have endFree : ∀ token ∈ Grammar.methodEnd method.result ++ Grammar.lineEnd,
      token.isBracket = false := by
    simp only [List.forall_mem_append, Grammar.methodEnd, Grammar.lineEnd, List.forall_mem_cons]
    exact ⟨⟨rfl, rfl, valid.isResult.noBracket, rfl, List.forall_mem_nil _⟩, rfl,
      List.forall_mem_nil _⟩
  obtain ⟨group, ofGroup, isGroup, isInner, isContent⟩ :=
    exists_group ⟨.opening .round, "("⟩ ⟨.closing .round, ")"⟩ rfl rfl
      (gathers_leaves _ (WrittenParameter.noBracket_listTokens valid.areParameters))
  obtain ⟨read, isWhole⟩ := Grammar.whole?_parameters valid.areParameters
    (lineBehind line (method.lead ++ Grammar.methodHead method.name) + lineBreaks "(")
  have isRegular : group.content.signature.regular = true := by
    rw [isContent]
    exact regular_signature isWhole
  refine ⟨_, _, (gathers_leaves line headFree).append (ofGroup.append (gathers_leaves _ endFree)),
    ?_, ?_⟩
  · have quiet : IsQuiet Grammar.lineEnd := by decide
    rw [leaves_append _ (Grammar.methodEnd method.result)]
    obtain ⟨added, taken⟩ := Grammar.takes_method (method.quiet_lead.isWideGap line) isGroup
      isRegular valid.isResult valid.isOther _ _
    refine .cons (List.mem_append_right _ List.mem_cons_self) (isTrivia_of_isGroup isGroup) ?_
      taken (.nil (quiet.isWideGap _))
    simp only [List.length_append, length_leaves, List.length_cons]
    omega
  · intro node member isRound
    rcases List.mem_append.mp member with inHead | inBehind
    · rw [isGroup_of_mem_leaves inHead] at isRound
      cases isRound
    · rcases List.mem_cons.mp inBehind with rfl | inEnd
      · rw [isInner]
        exact ⟨read, isWhole⟩
      · rw [isGroup_of_mem_leaves inEnd] at isRound
        cases isRound

end WrittenMethod

/-! ## Files -/

/-- A file with an interface in a namespace. -/
structure InterfaceFile where
  namespaceName : List Token
  name : String
  parent : Option (List Token)
  method : Option WrittenMethod

namespace InterfaceFile

/-- What stands in front of the parentheses of the directive. -/
def head : List Token :=
  [openingTag, ⟨.blank, "\n"⟩, .word "declare"]

/-- What stands between the parentheses of the directive. -/
def setting : List Token :=
  [.word "strict_types", ⟨.symbol, "="⟩, ⟨.literal, "1"⟩]

/-- The blank line in front of a statement. -/
def gap : List Token := [⟨.blank, "\n\n"⟩]

def body (file : InterfaceFile) : List Token :=
  file.method.elim Grammar.lineEnd WrittenMethod.tokens

def tokens (file : InterfaceFile) : List Token :=
  head ++ ((⟨.opening .round, "("⟩ :: setting ++ [⟨.closing .round, ")"⟩]) ++
    ([.semicolon] ++ ((gap ++ Grammar.namespaceTokens file.namespaceName) ++
      ((gap ++ Grammar.interfaceTokens file.name file.parent) ++
        ((⟨.opening .curly, "\x7b"⟩ :: file.body ++ [⟨.closing .curly, "\x7d"⟩]) ++
          Grammar.lineEnd)))))

/-- The names are names, that of the namespace stands on one line, and the method is valid. -/
structure Valid (file : InterfaceFile) : Prop where
  isNamespace : IsLocalName file.namespaceName
  unbroken : ∀ token ∈ file.namespaceName, lineBreaks token.text = 0
  areParents : ∀ parent ∈ file.parent, IsName parent
  isMethod : ∀ method ∈ file.method, method.Valid

/-- The interface is declared in the sixth line. -/
def declared (file : InterfaceFile) : ClassSyntax :=
  ⟨.interfaceKind, file.name, false, (file.parent.map tokensText).toList, [], none, 6⟩

def parameters (file : InterfaceFile) : List ParameterSyntax :=
  file.method.elim [] (fun method => method.parameters.map WrittenParameter.read)

/-- Members take what stands in the braces, and parameters what stands in parentheses there. -/
def ReadInside (braces : List Node) (parameters : List ParameterSyntax) : Prop :=
  ∃ values : List (Option ConstructorSyntax), Consists Grammar.member braces values ∧
    (∀ value ∈ values, value = none) ∧
    ∀ node ∈ braces, node.isGroup .round = true → ∃ added,
      whole? Grammar.parameters node.inner = some (parameters, ⟨added, true⟩)

variable {file : InterfaceFile}

theorem Valid.reads_body (valid : file.Valid) (line : Nat) :
    ∃ nodes behind, Gathers line file.body nodes behind ∧ ReadInside nodes file.parameters := by
  unfold body parameters
  cases isMethod : file.method with
  | none =>
      have quiet : IsQuiet Grammar.lineEnd := by decide
      refine ⟨_, _, gathers_leaves line quiet.noBracket, [], .nil (quiet.isWideGap line),
        List.forall_mem_nil _, fun node member isGroup => ?_⟩
      rw [isGroup_of_mem_leaves member] at isGroup
      cases isGroup
  | some method =>
      obtain ⟨nodes, behind, gathers, members, signature⟩ :=
        (valid.isMethod method isMethod).reads line
      exact ⟨nodes, behind, gathers, [none], members, by simp, signature⟩

/-- Without a constructor among the members the braces have none. -/
theorem ReadInside.constructor {braces : List Node} {parameters : List ParameterSyntax}
    (inside : ReadInside braces parameters) : (Content.ofCurly braces).constructor = none := by
  obtain ⟨values, members, areNone, -⟩ := inside
  obtain ⟨parts, isRead⟩ := members.throughout Grammar.passOver
  show (throughout Grammar.member Grammar.passOver braces).1.findSome? id = none
  rw [isRead, List.findSome?_eq_none_iff]
  exact areNone

theorem quiet_gap : IsQuiet gap := by decide

theorem quiet_lineEnd : IsQuiet Grammar.lineEnd := by decide

/-- The nodes of the file around its two groups. -/
def nodes (file : InterfaceFile) (arguments braces : Node) (last : Nat) : List Node :=
  leaves 1 head ++ ([arguments] ++ (leaves 2 [.semicolon] ++
    (leaves 2 (gap ++ Grammar.namespaceTokens file.namespaceName) ++
      (leaves 4 (gap ++ Grammar.interfaceTokens file.name file.parent) ++
        ([braces] ++ leaves last Grammar.lineEnd)))))

theorem bracket_unique {bracket other : Bracket} {node : Node}
    (isGroup : node.isGroup bracket = true) (isOther : node.isGroup other = true) :
    bracket = other := by
  cases node with
  | leaf => cases isGroup
  | group place opening inner closing content =>
      have isKind : opening.kind = .opening bracket := by simpa [Node.isGroup] using isGroup
      have isOtherKind : opening.kind = .opening other := by simpa [Node.isGroup] using isOther
      exact TokenKind.opening.inj (isKind.symm.trans isOtherKind)

/-- The three statements are read one after the other. -/
theorem Valid.consists (valid : file.Valid) {arguments braces : Node}
    (isRound : arguments.isGroup .round = true)
    (regularItems : arguments.content.items.regular = true)
    (isCurly : braces.isGroup .curly = true) (regularBody : braces.content.body.regular = true)
    (last : Nat) {bound : List Node} (isBound : bound ≠ []) :
    Consists (Grammar.statement bound) (file.nodes arguments braces last)
      [none, some (.namespaceStart (tokensText file.namespaceName)),
        some (.declaration { file.declared with constructor := braces.content.constructor })] := by
  have headGap : IsGap .wide (leaves 1 [openingTag, ⟨.blank, "\n"⟩]) :=
    isGap_of_trivia (by decide) 1
  have inNamespace : Token.word "namespace" ∈ gap ++ Grammar.namespaceTokens file.namespaceName :=
    List.mem_append_right _ List.mem_cons_self
  obtain ⟨place, isNamespace⟩ := exists_leaf_of_mem 2 inNamespace
  obtain ⟨ofDirective, first⟩ := Grammar.takes_directive headGap isRound regularItems 2 _ isBound
  obtain ⟨ofStart, second⟩ := Grammar.takes_namespaceStart (quiet_gap.isWideGap 2)
    (.inl valid.isNamespace) _ isBound
  obtain ⟨ofDeclaration, third⟩ := Grammar.takes_interface (quiet_gap.isWideGap 4)
    valid.areParents isCurly regularBody (leaves last Grammar.lineEnd) isBound
  refine .cons (List.mem_append_right _ List.mem_cons_self) (isTrivia_of_isGroup isRound) ?_ first
    (.cons (List.mem_append_left _ isNamespace) rfl ?_ second
      (.cons (List.mem_append_right _ List.mem_cons_self) (isTrivia_of_isGroup isCurly) ?_ third
        (.nil (quiet_lineEnd.isWideGap last))))
  all_goals
    simp only [nodes, gap, List.length_append, List.length_cons, length_leaves]
    omega

/-- The tokens of the file become its nodes, with the body in the braces. -/
theorem Valid.gathers (valid : file.Valid) :
    ∃ arguments braces last behind,
      Gathers 1 file.tokens (file.nodes arguments braces last) behind ∧
      arguments.isGroup .round = true ∧ arguments.content.items.regular = true ∧
      braces.isGroup .curly = true ∧
      braces.content = .ofInner .curly braces.inner ∧ ReadInside braces.inner file.parameters := by
  have namespaceFree : ∀ token ∈ gap ++ Grammar.namespaceTokens file.namespaceName,
      token.isBracket = false := by
    simp only [List.forall_mem_append, Grammar.namespaceTokens, List.forall_mem_cons]
    exact ⟨quiet_gap.noBracket, rfl, rfl, valid.isNamespace.noBracket, rfl, List.forall_mem_nil _⟩
  have heritageFree : ∀ token ∈ Grammar.heritageTokens file.parent, token.isBracket = false := by
    cases isParent : file.parent with
    | none => exact List.forall_mem_nil _
    | some parent =>
        simp only [Grammar.heritageTokens, List.forall_mem_cons]
        exact ⟨rfl, rfl, rfl, (valid.areParents parent isParent).noBracket⟩
  have interfaceFree : ∀ token ∈ gap ++ Grammar.interfaceTokens file.name file.parent,
      token.isBracket = false := by
    simp only [List.forall_mem_append, Grammar.interfaceTokens, Grammar.interfaceHead,
      List.forall_mem_cons]
    exact ⟨quiet_gap.noBracket, rfl, rfl, rfl, heritageFree, quiet_lineEnd.noBracket⟩
  have isSecond : lineBehind 1 head = 2 ∧ lineBehind (2 + lineBreaks "(") setting = 2 ∧
      lineBehind 2 [Token.semicolon] = 2 := by decide
  have isFourth : lineBehind 2 (gap ++ Grammar.namespaceTokens file.namespaceName) = 4 := by
    rw [lineBehind_append, lineBehind_of_unbroken]
    · decide
    · simp only [Grammar.namespaceTokens, List.forall_mem_cons, List.forall_mem_append]
      exact ⟨by decide, by decide, valid.unbroken, by decide, List.forall_mem_nil _⟩
  have ofHead := gathers_leaves 1 (show ∀ token ∈ head, token.isBracket = false by decide)
  have ofSetting := gathers_leaves (2 + lineBreaks "(")
    (show ∀ token ∈ setting, token.isBracket = false by decide)
  have ofSemicolon := gathers_leaves 2
    (show ∀ token ∈ [Token.semicolon], token.isBracket = false by decide)
  have ofNamespace := gathers_leaves 2 namespaceFree
  rw [isSecond.1] at ofHead
  rw [isSecond.2.1] at ofSetting
  rw [isSecond.2.2] at ofSemicolon
  rw [isFourth] at ofNamespace
  obtain ⟨arguments, ofArguments, isRound, -, isArguments⟩ :=
    exists_group ⟨.opening .round, "("⟩ ⟨.closing .round, ")"⟩ rfl rfl ofSetting
  have regularItems : arguments.content.items.regular = true := by
    rw [isArguments]
    decide +kernel
  obtain ⟨inner, behind, ofBody, inside⟩ := valid.reads_body
    (lineBehind 4 (gap ++ Grammar.interfaceTokens file.name file.parent) + lineBreaks "\x7b")
  obtain ⟨braces, ofBraces, isCurly, rfl, isContent⟩ :=
    exists_group ⟨.opening .curly, "\x7b"⟩ ⟨.closing .curly, "\x7d"⟩ rfl rfl ofBody
  exact ⟨arguments, braces, _, _, ofHead.append (ofArguments.append (ofSemicolon.append
    (ofNamespace.append ((gathers_leaves 4 interfaceFree).append
      (ofBraces.append (gathers_leaves _ quiet_lineEnd.noBracket)))))), isRound, regularItems,
    isCurly, isContent, inside⟩

/-- All that stands in the file is read: three statements, and the members in the braces. -/
theorem Valid.reads (valid : file.Valid) :
    ∃ nodes, ofTokens file.tokens = ⟨nodes, true⟩ ∧
      Consists (Grammar.statement nodes) nodes
        [none, some (.namespaceStart (tokensText file.namespaceName)),
          some (.declaration file.declared)] ∧
      ∀ node ∈ nodes, node.isGroup .curly = true → ReadInside node.inner file.parameters := by
  obtain ⟨arguments, braces, last, behind, gathers, isRound, regularItems, isCurly, isContent,
    inside⟩ := valid.gathers
  have isBound : file.nodes arguments braces last ≠ [] := List.cons_ne_nil _ _
  have regularBody : braces.content.body.regular = true := by
    obtain ⟨values, members, -⟩ := inside
    rw [isContent]
    exact regular_body members
  have consists := valid.consists isRound regularItems isCurly regularBody last isBound
  have noConstructor : braces.content.constructor = none := by
    rw [isContent]
    exact inside.constructor
  rw [noConstructor] at consists
  refine ⟨_, gathers.grouped, consists, fun node member isGroup => ?_⟩
  unfold nodes at member
  simp only [List.mem_append, List.mem_singleton] at member
  rcases member with inLeaves | rfl | inLeaves | inLeaves | inLeaves | rfl | inLeaves
  case inr.inl =>
      have isCurly : Bracket.round = .curly := bracket_unique isRound isGroup
      cases isCurly
  case inr.inr.inr.inr.inr.inl => exact inside
  all_goals
    rw [isGroup_of_mem_leaves inLeaves] at isGroup
    cases isGroup

/-- The text of such a file has no syntax error and declares the interface alone. -/
theorem Valid.ofText (valid : file.Valid) (isRead : scan (tokensText file.tokens) = file.tokens) :
    SourceFile.ofText (tokensText file.tokens) =
      ⟨[.namespaceStart (tokensText file.namespaceName), .declaration file.declared], true⟩ := by
  obtain ⟨nodes, grouped, consists, -⟩ := valid.reads
  obtain ⟨parts, isWhole⟩ := consists.throughout Grammar.passOver
  unfold SourceFile.ofText Grammar.statementsOf
  rw [isRead, grouped]
  dsimp only
  rw [isWhole]
  rfl

end InterfaceFile

end FactoryProxy.Php
