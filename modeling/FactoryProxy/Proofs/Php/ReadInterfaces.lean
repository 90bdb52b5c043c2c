import FactoryProxy.Proofs.Php.ReadImports
import FactoryProxy.Proofs.Php.ReadParameters

/-!
Contract: how the statements of generated code are read.

A file of generated code has three statements: a directive, a namespace and an interface. The
interface has at most one method, which has no body. Each statement and the method are read as
they are written, whatever stands behind them.

Owns: the tokens of these statements and of the method, and their reading.
Does not own: attributes, bodies of methods, and all other members and statements.
-/

namespace FactoryProxy.Php

open Reader Grouped
open Expression (tokensText)

namespace Token

def colon : Token := ⟨.symbol, ":"⟩

def semicolon : Token := ⟨.symbol, ";"⟩

end Token

namespace Grammar

variable {gap : Gap} {between lead : List Token} {rest : List Node} {line : Nat}

/-- The word behind the gap is not the keyword. -/
theorem lacks_keyword {text other : String} (isGap : IsGap gap (leaves line between))
    (isOther : Text.fold other ≠ text) (more : List Token) (rest : List Node) :
    Lacks gap (Node.isKeyword text) (leaves line (between ++ .word other :: more) ++ rest) := by
  rw [leaves_append, List.append_assoc]
  refine Lacks.behind isGap (lacks_leaf rfl ?_ _)
  simp [Node.isKeyword, Node.keyword?, Node.word?, Token.word, isOther]

/-- Behind the gap stands a token, so no brackets open there. -/
theorem lacks_group {token : Token} (bracket : Bracket) (isGap : IsGap gap (leaves line between))
    (notTrivia : token.isTrivia = false) (more : List Token) (rest : List Node) :
    Lacks gap (Node.isGroup bracket) (leaves line (between ++ token :: more) ++ rest) := by
  rw [leaves_append, List.append_assoc]
  exact Lacks.behind isGap (lacks_leaf notTrivia rfl _)

theorem takes_noAttributes {token : Token} (isGap : IsGap .wide (leaves line between))
    (notTrivia : token.isTrivia = false) (more : List Token) (rest : List Node) :
    Takes attributes (leaves line (between ++ token :: more) ++ rest)
      (leaves line (between ++ token :: more) ++ rest) () [] :=
  (Collects.nil (fails_group (lacks_group .attribute isGap notTrivia more rest)).discard).many

/-! ## Methods -/

/-- A public method up to its parentheses. -/
def methodHead (name : String) : List Token :=
  [.word "public", .space, .word "function", .space, .word name]

/-- The result of a method without a body, and the end of the method. -/
def methodEnd (result : List Token) : List Token :=
  .colon :: .space :: (result ++ [.semicolon])

/-- The word is no modifier. -/
theorem fails_modifier {text : String} (isGap : IsGap .wide (leaves line between))
    (noModifier : Text.fold text ∉ visibilities ++ otherModifiers) (more : List Token)
    (rest : List Node) :
    Fails modifier (leaves line (between ++ .word text :: more) ++ rest) := by
  have lacks : ∀ texts, Text.fold text ∉ texts → ∀ place, Lacks .wide (Node.isKeywordIn texts)
      (leaves place (.word text :: more) ++ rest) := by
    intro texts notIn place
    refine lacks_leaf rfl ?_ _
    simp [Node.isKeywordIn, Node.keyword?, Node.word?, Token.word, notIn]
  rw [List.mem_append, not_or] at noModifier
  refine (takes_skipLeaves isGap rfl more rest).bind_fails (Fails.bind (Fails.textOf ?_) _)
  exact ((fails_node (lacks _ noModifier.1 _)).bind _).orElse (fails_node (lacks _ noModifier.2 _))

/-- The keyword `public` is the only modifier in front of another word. -/
theorem takes_public (text : String) (isGap : IsGap .wide (leaves line between))
    (noModifier : Text.fold text ∉ visibilities ++ otherModifiers) (more : List Token)
    (rest : List Node) :
    ∃ place added, Takes (collect modifier)
      (leaves line (between ++ .word "public" :: .space :: .word text :: more) ++ rest)
      (leaves place ([.space] ++ .word text :: more) ++ rest) ["public"] added := by
  have noGap : ∀ place, IsGap .wide (leaves place []) := fun _ => isGap_nil .wide
  have afterSpace : ∀ place, IsGap .wide (leaves place [.space]) := isQuiet_space.isWideGap
  have isPublic : ∀ place, Takes visibility
      (leaves place (([] ++ [.word "public"]) ++ ([.space] ++ .word text :: more)) ++ rest)
      (leaves (lineBehind place ([] ++ [.word "public"])) ([.space] ++ .word text :: more) ++ rest)
      () ([Expression.leaf (.word "public")] ++ []) := by
    intro place
    rw [leaves_append, List.append_assoc]
    refine (takes_leafKeywordIn (noGap place) rfl (by decide)).bind
      (Fails.maybe (fails_node ?_)).discard
    exact (lacks_group .round (afterSpace _) rfl more rest).imp
      (fun _ noGroup => by simp [noGroup])
  have isText : Text.fold (Expression.textOf ([Expression.leaf (.word "public")] ++ [])) =
      "public" := by decide
  obtain ⟨added, taken⟩ : ∃ added, Takes modifier
      (leaves line (between ++ .word "public" :: .space :: .word text :: more) ++ rest)
      (leaves (lineBehind (lineBehind line between) ([] ++ [.word "public"]))
        ([.space] ++ .word text :: more) ++ rest) "public" added := by
    rw [← isText]
    exact ⟨_, (takes_skipLeaves isGap rfl _ rest).bind
      (((isPublic _).orElse _).textOf.returns (takes_pure _ _))⟩
  have noMore : ∀ place, Fails modifier (leaves place ([.space] ++ .word text :: more) ++ rest) :=
    fun place => fails_modifier (afterSpace place) noModifier more rest
  refine ⟨_, _, (Collects.cons ?_ taken (.nil (noMore _))).collect⟩
  simp only [List.length_append, length_leaves, List.length_cons, List.length_nil]
  omega

/-- What stands between the parentheses of a method is read as parameters. Which ones does not
matter for its place. -/
theorem takes_functionHead {parameters : Node} (name : String)
    (isGap : IsGap .wide (leaves line between)) (isGroup : parameters.isGroup .round = true)
    (isRegular : parameters.content.signature.regular = true) (rest : List Node) :
    ∃ added, Takes functionHead
      (leaves line (between ++ [.word "function", .space, .word name]) ++ parameters :: rest) rest
      (name, parameters.content.parameters) added := by
  have afterSpace : ∀ place, IsGap .wide (leaves place [.space]) := isQuiet_space.isWideGap
  have split : between ++ [.word "function", .space, .word name] =
      (between ++ [.word "function"]) ++ ([.space] ++ [.word name]) := by simp
  have noMark : ∀ place, Fails (symbol .wide "&")
      (leaves place ([.space] ++ [.word name]) ++ parameters :: rest) := fun place =>
    fails_node (lacks_leaves (afterSpace place) rfl (fun _ => rfl) [] _)
  obtain ⟨ofGroup, brackets⟩ := takes_group (isGap_nil .wide) isGroup Content.signature isRegular
    rest
  rw [split, leaves_append, List.append_assoc]
  exact ⟨_, (takes_leafKeyword isGap ⟨rfl, by decide⟩).bind ((noMark _).maybe.discard.bind
    ((takes_leafWord (afterSpace _) rfl).bind (brackets.returns (takes_pure _ rest))))⟩

/-- Nothing goes on with a type in front of a semicolon. -/
theorem endsType_semicolon (place : Nat) (rest : List Node) :
    EndsType .quiet (leaves place ([] ++ [.semicolon]) ++ rest) := by
  have noGap : IsGap .quiet (leaves place []) := isGap_nil .quiet
  exact ⟨(fails_node (lacks_leaves noGap rfl (fun _ => rfl) [] rest)).bind _,
    (fails_node (lacks_leaves noGap rfl (fun _ => rfl) [] rest)).bind _⟩

/-- Behind the parentheses a method has its result, and a semicolon in place of a body. -/
theorem takes_methodEnd {result : List Token} (isType : IsType result) (place : Nat)
    (rest : List Node) :
    ∃ middle ofResult ofEnd,
      Takes (resultType .quiet) (leaves place (methodEnd result) ++ rest) middle () ofResult ∧
      Takes blockOrEnd middle rest () ofEnd := by
  have noGap : ∀ place, IsGap .quiet (leaves place []) := fun _ => isGap_nil .quiet
  have split : methodEnd result =
      ([] ++ [.colon]) ++ (([.space] ++ result) ++ ([] ++ [.semicolon])) := by
    simp [methodEnd]
  rw [split, leaves_append place, leaves_append _ ([Token.space] ++ result), List.append_assoc,
    List.append_assoc]
  obtain ⟨added, hint⟩ := takes_typeHint (by decide) isType (endsType_semicolon _ rest)
    isQuiet_space (lineBehind place ([] ++ [.colon]))
  have noBlock : ∀ place, Fails (discard (group .quiet .curly Content.block))
      (leaves place ([] ++ [.semicolon]) ++ rest) := fun place =>
    (fails_group (lacks_group .curly (noGap place) rfl [] rest)).discard
  exact ⟨_, _, _, (takes_leafSymbol (noGap place) rfl).bind hint.discard,
    (noBlock _).orElse_takes (takes_terminator isQuiet_nil (.inr rfl))⟩

/-- A public method without a body is a member, and no constructor. -/
theorem takes_method {name : String} {parameters : Node} {result : List Token}
    (isGap : IsGap .wide (leaves line between)) (isGroup : parameters.isGroup .round = true)
    (isRegular : parameters.content.signature.regular = true) (isType : IsType result)
    (isOther : Text.fold name ≠ "__construct") (place : Nat) (rest : List Node) :
    ∃ added, Takes member
      (leaves line (between ++ methodHead name) ++
        parameters :: (leaves place (methodEnd result) ++ rest)) rest none added := by
  obtain ⟨middle, ofResult, ofEnd, isResult, isEnd⟩ := takes_methodEnd isType place rest
  obtain ⟨further, ofModifiers, modifiers⟩ := takes_public "function" isGap (by decide)
    [.space, .word name] (parameters :: (leaves place (methodEnd result) ++ rest))
  obtain ⟨ofHead, head⟩ := takes_functionHead name (isQuiet_space.isWideGap further)
    isGroup isRegular (leaves place (methodEnd result) ++ rest)
  have noAttributes : Takes attributes (leaves line (between ++ methodHead name) ++
      parameters :: (leaves place (methodEnd result) ++ rest)) _ () [] :=
    takes_noAttributes isGap rfl _ _
  have given : ∀ visible, Takes (pure (if Text.fold name = "__construct" then
      some (⟨visible, parameters.content.parameters⟩ : ConstructorSyntax) else none)) rest rest
      none [] := by
    intro visible
    rw [if_neg isOther]
    exact takes_pure none rest
  have isMethod : Takes (method ["public"]) _ rest none _ :=
    head.bind (isResult.maybe.discard.bind (isEnd.bind (given _)))
  exact ⟨_, noAttributes.bind (modifiers.bind (isMethod.orElse _))⟩

/-! ## Statements -/

theorem takes_peekLeaf {token : Token} (isGap : IsGap .wide (leaves line between))
    (notTrivia : token.isTrivia = false) (more : List Token) (rest : List Node) :
    Takes (peek .wide) (leaves line (between ++ token :: more) ++ rest)
      (leaves line (between ++ token :: more) ++ rest)
      (some (.leaf (lineBehind line between) token)) [] := by
  rw [leaves_append, List.append_assoc]
  exact takes_peek isGap (allows_leaf .wide notTrivia _) _

/-- What a declaration has in front of its keyword. -/
theorem takes_noModifiers {text : String} (isGap : IsGap .wide (leaves line between))
    (noModifier : Text.fold text ∉ visibilities ++ otherModifiers) (more : List Token)
    (rest : List Node) :
    Takes (collect modifier) (leaves line (between ++ .word text :: more) ++ rest)
      (leaves line (between ++ .word text :: more) ++ rest) [] [] :=
  (Collects.nil (fails_modifier isGap noModifier more rest)).collect

/-- A word that is no keyword of a declaration starts no statement that is kept. -/
theorem fails_keptStatement (text : String) (isGap : IsGap .wide (leaves line between))
    (isOther : Text.fold text ∉ ["namespace", "use"] ++ (visibilities ++ otherModifiers))
    (noKind : kindOf? (Text.fold text) = none) (more : List Token) (rest : List Node) :
    Fails keptStatement (leaves line (between ++ .word text :: more) ++ rest) := by
  simp only [List.mem_append, List.mem_cons, List.not_mem_nil, or_false, not_or] at isOther
  have noModifier : Text.fold text ∉ visibilities ++ otherModifiers := by
    simpa only [List.mem_append, not_or] using isOther.2
  have noNamespace : Fails namespaceDefinition _ :=
    (fails_node (lacks_keyword isGap isOther.1.1 more rest)).bind _
  have noImport : Fails importDeclaration _ :=
    (fails_node (lacks_keyword isGap isOther.1.2 more rest)).bind _
  have noClass : Fails classKind (leaves line (between ++ .word text :: more) ++ rest) := by
    rw [show between ++ Token.word text :: more = (between ++ [.word text]) ++ more by simp,
      leaves_append, List.append_assoc]
    refine (takes_leafWord isGap rfl).bind_fails ?_
    rw [show (Token.word text).text = text from rfl, noKind]
    exact fun _ _ => rfl
  have noDeclaration : Fails classDeclaration
      (leaves line (between ++ .word text :: more) ++ rest) :=
    (takes_peekLeaf isGap rfl more rest).bind_fails
      ((takes_noAttributes isGap rfl more rest).bind_fails
        ((takes_noModifiers isGap noModifier more rest).bind_fails (noClass.bind _)))
  exact noNamespace.orElse (noImport.orElse noDeclaration)

/-- A directive with its arguments in parentheses is a statement that is not kept. -/
theorem takes_directive {arguments : Node} (isGap : IsGap .wide (leaves line between))
    (isGroup : arguments.isGroup .round = true) (isRegular : arguments.content.items.regular = true)
    (place : Nat) (rest : List Node) {bound : List Node} (isBound : bound ≠ []) :
    ∃ added, Takes (statement bound)
      (leaves line (between ++ [.word "declare"]) ++
        arguments :: (leaves place [.semicolon] ++ rest)) rest none added := by
  have noHead : ∀ other, Text.fold "declare" ≠ other → Fails (head other)
      (leaves line (between ++ [.word "declare"]) ++
        arguments :: (leaves place [.semicolon] ++ rest)) := fun other isOther =>
    (fails_node (lacks_keyword isGap isOther [] _)).bind _
  have notKept := fails_keptStatement "declare" isGap (by decide) (by decide) []
    (arguments :: (leaves place [.semicolon] ++ rest))
  obtain ⟨ofGroup, brackets⟩ := takes_group (isGap_nil .wide) isGroup Content.items isRegular
    (leaves place [.semicolon] ++ rest)
  have isKeyword : (Token.word "declare").IsKeyword "declare" := ⟨rfl, by decide⟩
  have isHead : Takes (head "declare") _ _ () _ :=
    (takes_leafKeyword isGap isKeyword).bind brackets.discard
  have isEnded : Takes terminator (leaves place ([] ++ [.semicolon]) ++ rest) rest () _ :=
    takes_terminator isQuiet_nil (.inr rfl)
  have isHeaded : ∀ body, Takes (headedBy "declare" "enddeclare" body) _ rest () _ := fun body =>
    isHead.bind (isEnded.orElse _)
  have isStructure : ∀ body, Takes (controlStructure body) _ rest () _ := fun body =>
    ((noHead "if" (by decide)).bind _).orElse_takes
      (((noHead "while" (by decide)).bind _).orElse_takes
        (((noHead "for" (by decide)).bind _).orElse_takes
          (((noHead "foreach" (by decide)).bind _).orElse_takes ((isHeaded body).orElse _))))
  obtain ⟨first, bound, rfl⟩ := List.exists_cons_of_ne_nil isBound
  exact ⟨_, (notKept.bind _).orElse_takes
    (((isStructure _).orElse _).returns (takes_pure none rest))⟩

/-- A namespace for the rest of the file. -/
def namespaceTokens (named : List Token) : List Token :=
  .word "namespace" :: .space :: (named ++ [.semicolon])

theorem takes_namespaceStart {named : List Token} (isGap : IsGap .wide (leaves line between))
    (isName : IsName named) (rest : List Node) {bound : List Node} (isBound : bound ≠ []) :
    ∃ added, Takes (statement bound)
      (leaves line (between ++ namespaceTokens named) ++ rest) rest
      (some (.namespaceStart (tokensText named))) added := by
  have split : between ++ namespaceTokens named =
      (between ++ [.word "namespace"]) ++ (([.space] ++ named) ++ ([] ++ [.semicolon])) := by
    simp [namespaceTokens]
  rw [split, leaves_append line, leaves_append _ ([Token.space] ++ named), List.append_assoc,
    List.append_assoc]
  have noBlock : ∀ place more, Fails (namespaceBlock "" .wide)
      (leaves place ([.space] ++ named) ++ more) := by
    intro place more
    obtain ⟨head, others, rfl, notTrivia, -⟩ := head_of_isName isName
    have noGroup := lacks_group .curly (isQuiet_space.isWideGap place) notTrivia others more
    exact (fails_group noGroup).bind _
  have isNamed : ∀ place further, Takes (name .quiet)
      (leaves place ([.space] ++ named) ++ (leaves further ([] ++ [.semicolon]) ++ rest))
      (leaves further ([] ++ [.semicolon]) ++ rest) (tokensText named) _ := fun place further =>
    takes_name (by decide) isName (endsType_semicolon further rest).noSegment isQuiet_space
  have isEnded : ∀ place, Takes (namespaceStart (tokensText named))
      (leaves place ([] ++ [.semicolon]) ++ rest) rest (.namespaceStart (tokensText named)) _ :=
    fun place => (takes_terminator isQuiet_nil (.inr rfl)).returns (takes_pure _ rest)
  have isDefinition : ∀ place further, Takes namespaceDefinition
      (leaves line (between ++ [.word "namespace"]) ++ (leaves place ([.space] ++ named) ++
        (leaves further ([] ++ [.semicolon]) ++ rest))) rest
      (.namespaceStart (tokensText named)) _ := fun place further =>
    (takes_leafKeyword isGap ⟨rfl, by decide⟩).bind
      ((noBlock place _).orElse_takes ((isNamed place further).bind ((isEnded further).orElse _)))
  exact ⟨_, takes_statement ((isDefinition _ _).orElse _) isBound⟩

/-- The name behind `extends`, if there is one. -/
def heritageTokens : Option (List Token) → List Token
  | none => []
  | some parent => .space :: .word "extends" :: .space :: parent

/-- What stands in front of the braces of an interface. -/
def lineEnd : List Token := [⟨.blank, "\n"⟩]

/-- What stands between the keyword of an interface and its braces. -/
def interfaceHead (named : String) (parent : Option (List Token)) : List Token :=
  .space :: .word named :: (heritageTokens parent ++ lineEnd)

/-- An interface up to its braces. -/
def interfaceTokens (named : String) (parent : Option (List Token)) : List Token :=
  .word "interface" :: interfaceHead named parent

/-- Neither a keyword nor a separator or a comma stands in front of the braces. -/
theorem lacks_braces {braces : Node} {test : Node → Bool} (isGroup : braces.isGroup .curly = true)
    (refused : test braces = false) (place : Nat) (rest : List Node) :
    Lacks .wide test (leaves place lineEnd ++ braces :: rest) := by
  have isQuiet : IsQuiet lineEnd := by decide
  exact Lacks.behind (isQuiet.isWideGap place)
    (lacks_cons (allows_of_isGroup isGroup .wide) refused rest)

theorem takes_heritage {parent : Option (List Token)} {braces : Node}
    (areNames : ∀ named ∈ parent, IsName named) (isGroup : braces.isGroup .curly = true)
    (place : Nat) (rest : List Node) :
    ∃ further added, Takes (heritageIfAny "extends")
      (leaves place (heritageTokens parent ++ lineEnd) ++ braces :: rest)
      (leaves further lineEnd ++ braces :: rest) (parent.map tokensText).toList added := by
  have refused : ∀ text, braces.isKeyword text = false ∧ braces.isSymbol text = false := by
    obtain ⟨_, _, _, _, _, rfl⟩ := exists_of_isGroup isGroup
    exact fun _ => ⟨rfl, rfl⟩
  cases parent with
  | none =>
      have noHeritage : Fails (heritage "extends") (leaves place lineEnd ++ braces :: rest) :=
        (fails_node (lacks_braces isGroup (refused _).1 place rest)).bind _
      exact ⟨place, _, noHeritage.orElse_takes (takes_pure [] _)⟩
  | some named =>
      have split : heritageTokens (some named) ++ lineEnd =
          ([.space] ++ [.word "extends"]) ++ (([.space] ++ named) ++ lineEnd) := by
        simp [heritageTokens]
      rw [split, leaves_append place, leaves_append _ ([Token.space] ++ named), List.append_assoc,
        List.append_assoc]
      have noMore : ∀ further, Fails (do symbol .wide ","; name .wide)
          (leaves further lineEnd ++ braces :: rest) :=
        fun further => (fails_node (lacks_braces isGroup (refused _).2 further rest)).bind _
      have isNamed : ∀ place further, Takes (name .wide)
          (leaves place ([.space] ++ named) ++ (leaves further lineEnd ++ braces :: rest))
          (leaves further lineEnd ++ braces :: rest) (tokensText named) _ := fun place further =>
        takes_name (by decide) (areNames named rfl)
          ((fails_node (lacks_braces isGroup (refused _).2 further rest)).bind _) isQuiet_space
      have isListed : ∀ place further, Takes (listed .wide (name .wide))
          (leaves place ([.space] ++ named) ++ (leaves further lineEnd ++ braces :: rest))
          (leaves further lineEnd ++ braces :: rest) [tokensText named] _ := fun place further =>
        (isNamed place further).bind
          ((Collects.nil (noMore further)).collect.returns (takes_pure _ _))
      exact ⟨_, _, ((takes_leafKeyword (isQuiet_space.isWideGap place) ⟨rfl, by decide⟩).bind
        (isListed _ _)).orElse _⟩

/-- Nothing is passed over in front of the heritage of an interface. -/
theorem takes_noStrayWords {braces : Node} (parent : Option (List Token))
    (isGroup : braces.isGroup .curly = true) (place : Nat) (rest : List Node) :
    Takes strayWords (leaves place (heritageTokens parent ++ lineEnd) ++ braces :: rest)
      (leaves place (heritageTokens parent ++ lineEnd) ++ braces :: rest) () [] := by
  refine (Collects.nil ?_).many
  cases parent with
  | none =>
      obtain ⟨_, _, _, _, _, rfl⟩ := exists_of_isGroup isGroup
      have noWord : Fails (word .wide) _ := fails_word (lacks_braces isGroup rfl place rest)
      exact (lacks_braces isGroup rfl place rest).sees.bind_fails (noWord.discard.bind _)
  | some named =>
      have isKeyword : ∀ line, Node.isKeywordIn ["extends", "implements"]
          (.leaf line (.word "extends")) = true := by
        intro line
        show ["extends", "implements"].contains (Text.fold "extends") = true
        decide
      exact (takes_seesLeaf (isQuiet_space.isWideGap place) rfl isKeyword
        (.space :: named ++ lineEnd) (braces :: rest)).bind_fails (fun _ _ => rfl)

/-- The keyword of a kind of declaration is taken. -/
theorem takes_classKind {text : String} {kind : ClassKind}
    (isGap : IsGap .wide (leaves line between)) (isKind : kindOf? (Text.fold text) = some kind)
    (more : List Token) (rest : List Node) :
    ∃ place added, Takes classKind (leaves line (between ++ .word text :: more) ++ rest)
      (leaves place more ++ rest) kind added := by
  rw [show between ++ Token.word text :: more = (between ++ [.word text]) ++ more by simp,
    leaves_append, List.append_assoc]
  refine ⟨_, _, (takes_leafWord isGap rfl).returns ?_⟩
  rw [show (Token.word text).text = text from rfl, isKind]
  exact takes_pure kind _

/-- An interface behind its keyword. -/
theorem takes_namedInterface {parent : Option (List Token)} {braces : Node} (named : String)
    (areNames : ∀ named ∈ parent, IsName named) (isGroup : braces.isGroup .curly = true)
    (isRegular : braces.content.body.regular = true) (start place : Nat) (rest : List Node) :
    ∃ added, Takes (namedClass start false .interfaceKind)
      (leaves place (interfaceHead named parent) ++ braces :: rest) rest
      (.declaration ⟨.interfaceKind, named, false, (parent.map tokensText).toList, [],
        braces.content.constructor, start⟩) added := by
  have split : interfaceHead named parent =
      ([.space] ++ [.word named]) ++ (heritageTokens parent ++ lineEnd) := rfl
  obtain ⟨further, ofParents, parents⟩ := takes_heritage areNames isGroup
    (lineBehind place ([.space] ++ [.word named])) rest
  have isQuiet : IsQuiet lineEnd := by decide
  obtain ⟨ofBraces, body⟩ := takes_group (isQuiet.isWideGap further) isGroup Content.body
    isRegular rest
  have noInterfaces : Fails (heritage "implements") (leaves further lineEnd ++ braces :: rest) := by
    refine (fails_node (lacks_braces isGroup ?_ further rest)).bind _
    obtain ⟨_, _, _, _, _, rfl⟩ := exists_of_isGroup isGroup
    rfl
  have interfaces : Takes (heritageIfAny "implements") _ _ [] _ :=
    noInterfaces.orElse_takes (takes_pure [] _)
  rw [split, leaves_append, List.append_assoc]
  exact ⟨_, (takes_leafWord (isQuiet_space.isWideGap place) rfl).bind
    ((takes_noStrayWords parent isGroup _ rest).bind
      (parents.bind (interfaces.bind (body.returns (takes_pure _ rest)))))⟩

/-- An interface is read from the line of its keyword on. -/
theorem takes_interface {named : String} {parent : Option (List Token)} {braces : Node}
    (isGap : IsGap .wide (leaves line between)) (areNames : ∀ named ∈ parent, IsName named)
    (isGroup : braces.isGroup .curly = true) (isRegular : braces.content.body.regular = true)
    (rest : List Node) {bound : List Node} (isBound : bound ≠ []) :
    ∃ added, Takes (statement bound)
      (leaves line (between ++ interfaceTokens named parent) ++ braces :: rest) rest
      (some (.declaration ⟨.interfaceKind, named, false, (parent.map tokensText).toList, [],
        braces.content.constructor, lineBehind line between⟩)) added := by
  have isInterface : kindOf? (Text.fold "interface") = some .interfaceKind := by decide
  have noNamespace : Fails namespaceDefinition
      (leaves line (between ++ interfaceTokens named parent) ++ braces :: rest) :=
    (fails_node (lacks_keyword isGap (by decide) _ _)).bind _
  have noImport : Fails importDeclaration
      (leaves line (between ++ interfaceTokens named parent) ++ braces :: rest) :=
    (fails_node (lacks_keyword isGap (by decide) _ _)).bind _
  obtain ⟨place, ofKind, kind⟩ := takes_classKind isGap isInterface (interfaceHead named parent)
    (braces :: rest)
  obtain ⟨ofRest, declared⟩ := takes_namedInterface named areNames isGroup
    isRegular (lineBehind line between) place rest
  have hasName : ∀ nodes, Fails (nameless .interfaceKind) nodes := fun _ _ _ => rfl
  have isDeclaration : Takes classDeclaration _ rest _ _ :=
    (takes_peekLeaf isGap rfl _ _).bind ((takes_noAttributes isGap rfl _ _).bind
      ((takes_noModifiers isGap (by decide) _ _).bind
        (kind.bind ((hasName _).orElse_takes declared))))
  exact ⟨_, takes_statement (noNamespace.orElse_takes (noImport.orElse_takes isDeclaration))
    isBound⟩

end Grammar

end FactoryProxy.Php
