import FactoryProxy.Proofs.Php.WrittenNames

/-!
Contract: import declarations as tokens.

A declaration imports names one by one, or names in braces below a common start. A marker tells
that functions or constants are imported, by the whole declaration or by one name in braces, and
each name may be given a local name. Between two tokens white space and comments may stand.

Owns: the two forms of a declaration, the tokens that write it, and one such writing of each.
Does not own: their reading, and what an import means for the names of a file.
-/

namespace FactoryProxy.Php

/-! ## Forms -/

/-- The token is a word that marks an import of functions or constants. -/
def Token.IsMarker (token : Token) : Prop :=
  token.kind = .word ∧ Text.fold token.text ∈ ["function", "const"]

/-- The token ends a statement. -/
def Token.IsEnd (token : Token) : Prop :=
  token.kind = .outside ∨ token = ⟨.symbol, ";"⟩

/-- What stands before a name: the marker, if there is one, white space and comments. -/
inductive IsLead : Bool → List Token → Prop where
  | unmarked {between : List Token} (quiet : IsQuiet between) : IsLead false between
  | marked {before behind : List Token} {marker : Token} (quietBefore : IsQuiet before)
      (isMarker : marker.IsMarker) (quietBehind : IsQuiet behind) :
      IsLead true (before ++ marker :: behind)

/-- What stands behind a name: the local name, if one is given. -/
inductive IsAlias : Option String → List Token → Prop where
  | none : IsAlias none []
  | given {before behind : List Token} {keyword word : Token} (quietBefore : IsQuiet before)
      (isAs : keyword.IsKeyword "as") (quietBehind : IsQuiet behind)
      (isWord : word.kind = .word) :
      IsAlias (some word.text) (before ++ keyword :: (behind ++ [word]))

/-- The name does not start with a marker. -/
def StartsUnmarked (name : List Token) : Prop :=
  ∀ first, name.head? = some first → ¬ first.IsMarker

/-- An imported name as tokens. -/
structure WrittenClause where
  marked : Bool
  name : List Token
  localName : Option String
deriving DecidableEq, Repr

namespace WrittenClause

def clause (written : WrittenClause) : ImportClause :=
  ⟨written.marked, Expression.tokensText written.name, written.localName⟩

/-- The name is one. A first word that could be the marker is the marker. -/
structure Valid (written : WrittenClause) : Prop where
  isName : IsName written.name
  unmarked : written.marked = false → StartsUnmarked written.name

/-- The tokens are the name with its marker and its local name. -/
inductive Written (written : WrittenClause) : List Token → Prop where
  | intro {lead given : List Token} (isLead : IsLead written.marked lead) (valid : written.Valid)
      (isAlias : IsAlias written.localName given) :
      Written written (lead ++ (written.name ++ given))

end WrittenClause

/-- Imported names, each behind a comma. -/
inductive WrittenFurther : List WrittenClause → List Token → Prop where
  | nil : WrittenFurther [] []
  | cons {before tokens rest : List Token} {first : WrittenClause} {others : List WrittenClause}
      (quiet : IsQuiet before) (written : first.Written tokens)
      (further : WrittenFurther others rest) :
      WrittenFurther (first :: others) (before ++ .comma :: (tokens ++ rest))

/-- The end of a list of names: white space and comments, maybe with one more comma. -/
def IsEnding (tokens : List Token) : Prop :=
  IsQuiet tokens ∨ ∃ before behind, tokens = before ++ .comma :: behind ∧ IsQuiet before ∧
    IsQuiet behind

/-- The inside of braces. -/
inductive WrittenInside : List WrittenClause → List Token → Prop where
  | empty {between : List Token} (quiet : IsQuiet between) : WrittenInside [] between
  | listed {tokens more ending : List Token} {first : WrittenClause}
      {others : List WrittenClause} (written : first.Written tokens)
      (further : WrittenFurther others more) (isEnding : IsEnding ending) :
      WrittenInside (first :: others) (tokens ++ (more ++ ending))

/-- An import declaration with its names as tokens. -/
inductive WrittenImport where
  /-- Names in braces below a common start. -/
  | group (marked : Bool) (start : List Token) (members : List WrittenClause)
  | list (marked : Bool) (names : List WrittenClause)
deriving DecidableEq, Repr

namespace WrittenImport

def marked : WrittenImport → Bool
  | .group marked _ _ | .list marked _ => marked

/-- The declaration that is written. -/
def declared : WrittenImport → ImportSyntax
  | .group marked start members =>
    ⟨marked, some (Expression.tokensText start), members.map WrittenClause.clause⟩
  | .list marked names => ⟨marked, none, names.map WrittenClause.clause⟩

/-- Only in braces may single names be marked, and there all names start with a segment. -/
inductive Valid : WrittenImport → Prop where
  | group {marked : Bool} {start : List Token} {members : List WrittenClause}
      (isName : IsName start) (unmarked : marked = false → StartsUnmarked start)
      (areValid : ∀ member ∈ members, member.Valid)
      (areLocal : ∀ member ∈ members, IsLocalName member.name) :
      Valid (.group marked start members)
  | list {marked : Bool} {first : WrittenClause} {others : List WrittenClause}
      (areValid : ∀ written ∈ first :: others, written.Valid)
      (noneMarked : ∀ written ∈ first :: others, written.marked = false) :
      Valid (.list marked (first :: others))

/-- The tokens of a declaration from its keyword to its end. -/
inductive Written : WrittenImport → List Token → Prop where
  | group {keyword opening closing last : Token} {marked : Bool}
      {lead start before behind inside between : List Token} {members : List WrittenClause}
      (isUse : keyword.IsKeyword "use") (isLead : IsLead marked lead) (isName : IsName start)
      (unmarked : marked = false → StartsUnmarked start) (quietBefore : IsQuiet before)
      (quietBehind : IsQuiet behind) (isOpening : opening.kind = .opening .curly)
      (isInside : WrittenInside members inside)
      (areLocal : ∀ member ∈ members, IsLocalName member.name)
      (isClosing : closing.kind = .closing .curly) (quiet : IsQuiet between)
      (isEnd : last.IsEnd) :
      Written (.group marked start members)
        ((keyword :: (lead ++ (start ++ (before ++ .backslash :: behind)))) ++
          ((opening :: inside ++ [closing]) ++ (between ++ [last])))
  | list {keyword last : Token} {marked : Bool} {lead given more between : List Token}
      {first : WrittenClause} {others : List WrittenClause} (isUse : keyword.IsKeyword "use")
      (isLead : IsLead marked lead) (isFirst : first.Valid)
      (noneMarked : ∀ written ∈ first :: others, written.marked = false)
      (isAlias : IsAlias first.localName given) (further : WrittenFurther others more)
      (quiet : IsQuiet between) (isEnd : last.IsEnd) :
      Written (.list marked (first :: others))
        (keyword :: (lead ++ (first.name ++ (given ++ (more ++ (between ++ [last]))))))

end WrittenImport

/-- Import declarations with text outside the code, white space and comments around them. -/
inductive WrittenImports : List WrittenImport → List Token → Prop where
  | none {tokens : List Token} (isTrivia : ∀ token ∈ tokens, token.isTrivia) :
      WrittenImports [] tokens
  | more {lead tokens rest : List Token} {form : WrittenImport} {others : List WrittenImport}
      (isTrivia : ∀ token ∈ lead, token.isTrivia) (written : form.Written tokens)
      (further : WrittenImports others rest) :
      WrittenImports (form :: others) ((lead ++ tokens) ++ rest)

/-! ## Plain writing -/

namespace Token

def space : Token := ⟨.blank, " "⟩

def word (text : String) : Token := ⟨.word, text⟩

end Token

def plainLead (marked : Bool) : List Token :=
  if marked then [.space, .word "function", .space] else [.space]

def plainAlias : Option String → List Token
  | none => []
  | some localName => [.space, .word "as", .space, .word localName]

def WrittenClause.plain (written : WrittenClause) : List Token :=
  plainLead written.marked ++ (written.name ++ plainAlias written.localName)

def plainFurther : List WrittenClause → List Token
  | [] => []
  | first :: others => .comma :: (first.plain ++ plainFurther others)

def plainInside : List WrittenClause → List Token
  | [] => []
  | first :: others => first.plain ++ (plainFurther others ++ [])

namespace WrittenImport

/-- The declaration with a space around keywords and in front of names. -/
def plain : WrittenImport → List Token
  | .group marked start members =>
    (.word "use" :: (plainLead marked ++ (start ++ [.backslash]))) ++
      ((⟨.opening .curly, "\x7b"⟩ :: plainInside members ++ [⟨.closing .curly, "\x7d"⟩]) ++
        [⟨.symbol, ";"⟩])
  | .list marked (first :: others) =>
    .word "use" :: (plainLead marked ++ (first.name ++ (plainAlias first.localName ++
      (plainFurther others ++ [⟨.symbol, ";"⟩]))))
  | .list _ [] => []

/-- Declarations in order behind a lead, with a space behind each. -/
def plainAll (lead : List Token) : List WrittenImport → List Token
  | [] => lead
  | form :: others => (lead ++ form.plain) ++ plainAll [.space] others

end WrittenImport

theorem isQuiet_nil : IsQuiet [] := List.forall_mem_nil _

theorem isQuiet_space : IsQuiet [.space] := by decide

theorem isLead_plain (marked : Bool) : IsLead marked (plainLead marked) := by
  cases marked with
  | false => exact .unmarked isQuiet_space
  | true =>
      have isMarker : (Token.word "function").IsMarker := ⟨rfl, by decide +kernel⟩
      exact .marked isQuiet_space isMarker isQuiet_space

theorem isAlias_plain (localName : Option String) : IsAlias localName (plainAlias localName) := by
  cases localName with
  | none => exact .none
  | some given =>
      have isAs : (Token.word "as").IsKeyword "as" := ⟨rfl, by decide +kernel⟩
      have isWord : (Token.word given).kind = .word := rfl
      exact .given isQuiet_space isAs isQuiet_space isWord

theorem WrittenClause.Valid.written {written : WrittenClause} (valid : written.Valid) :
    written.Written written.plain :=
  .intro (isLead_plain _) valid (isAlias_plain _)

theorem writtenFurther_plain {others : List WrittenClause}
    (areValid : ∀ written ∈ others, written.Valid) :
    WrittenFurther others (plainFurther others) := by
  induction others with
  | nil => exact .nil
  | cons first others inductionHypothesis =>
      obtain ⟨isFirst, areOthers⟩ := List.forall_mem_cons.mp areValid
      exact .cons isQuiet_nil isFirst.written (inductionHypothesis areOthers)

theorem writtenInside_plain {members : List WrittenClause}
    (areValid : ∀ written ∈ members, written.Valid) :
    WrittenInside members (plainInside members) := by
  cases members with
  | nil => exact .empty isQuiet_nil
  | cons first others =>
      obtain ⟨isFirst, areOthers⟩ := List.forall_mem_cons.mp areValid
      exact .listed isFirst.written (writtenFurther_plain areOthers) (.inl isQuiet_nil)

/-- Every declaration has a writing. -/
theorem WrittenImport.Valid.written {form : WrittenImport} (valid : form.Valid) :
    form.Written form.plain := by
  have isUse : (Token.word "use").IsKeyword "use" := ⟨rfl, by decide +kernel⟩
  cases valid with
  | group isName unmarked areValid areLocal =>
      exact .group isUse (isLead_plain _) isName unmarked isQuiet_nil isQuiet_nil rfl
        (writtenInside_plain areValid) areLocal rfl isQuiet_nil (.inr rfl)
  | list areValid noneMarked =>
      obtain ⟨isFirst, areOthers⟩ := List.forall_mem_cons.mp areValid
      exact .list isUse (isLead_plain _) isFirst noneMarked (isAlias_plain _)
        (writtenFurther_plain areOthers) isQuiet_nil (.inr rfl)

theorem writtenImports_plainAll {forms : List WrittenImport}
    (areValid : ∀ form ∈ forms, form.Valid) : ∀ {lead : List Token},
      (∀ token ∈ lead, token.isTrivia = true) →
        WrittenImports forms (WrittenImport.plainAll lead forms) := by
  induction forms with
  | nil => exact fun isTrivia => .none isTrivia
  | cons form others inductionHypothesis =>
      intro lead isTrivia
      obtain ⟨isForm, areOthers⟩ := List.forall_mem_cons.mp areValid
      exact .more isTrivia isForm.written (inductionHypothesis areOthers (by decide))

/-! ## Tokens without brackets -/

theorem Token.IsEnd.noBracket {token : Token} (isEnd : token.IsEnd) : token.isBracket = false := by
  rcases isEnd with isKind | rfl
  · unfold Token.isBracket
    rw [isKind]
  · rfl

theorem IsLead.noBracket {marked : Bool} {tokens : List Token} (isLead : IsLead marked tokens) :
    ∀ token ∈ tokens, token.isBracket = false := by
  cases isLead with
  | unmarked quiet => exact quiet.noBracket
  | marked quietBefore isMarker quietBehind =>
      refine List.forall_mem_append.mpr ⟨quietBefore.noBracket, ?_⟩
      exact List.forall_mem_cons.mpr ⟨noBracket_of_word isMarker.1, quietBehind.noBracket⟩

theorem IsAlias.noBracket {localName : Option String} {tokens : List Token}
    (isAlias : IsAlias localName tokens) : ∀ token ∈ tokens, token.isBracket = false := by
  cases isAlias with
  | none => exact List.forall_mem_nil _
  | given quietBefore isAs quietBehind isWord =>
      refine List.forall_mem_append.mpr ⟨quietBefore.noBracket, ?_⟩
      refine List.forall_mem_cons.mpr ⟨noBracket_of_word isAs.1, ?_⟩
      exact List.forall_mem_append.mpr
        ⟨quietBehind.noBracket, List.forall_mem_singleton.mpr (noBracket_of_word isWord)⟩

theorem WrittenClause.Written.noBracket {written : WrittenClause} {tokens : List Token}
    (isWritten : written.Written tokens) : ∀ token ∈ tokens, token.isBracket = false := by
  obtain ⟨isLead, valid, isAlias⟩ := isWritten
  refine List.forall_mem_append.mpr ⟨isLead.noBracket, ?_⟩
  exact List.forall_mem_append.mpr ⟨valid.isName.noBracket, isAlias.noBracket⟩

theorem WrittenFurther.noBracket {others : List WrittenClause} {tokens : List Token}
    (further : WrittenFurther others tokens) : ∀ token ∈ tokens, token.isBracket = false := by
  induction further with
  | nil => exact List.forall_mem_nil _
  | cons quiet written _ inductionHypothesis =>
      refine List.forall_mem_append.mpr ⟨quiet.noBracket, List.forall_mem_cons.mpr ⟨rfl, ?_⟩⟩
      exact List.forall_mem_append.mpr ⟨written.noBracket, inductionHypothesis⟩

theorem IsEnding.noBracket {tokens : List Token} (isEnding : IsEnding tokens) :
    ∀ token ∈ tokens, token.isBracket = false := by
  rcases isEnding with quiet | ⟨before, behind, rfl, quietBefore, quietBehind⟩
  · exact quiet.noBracket
  · exact List.forall_mem_append.mpr
      ⟨quietBefore.noBracket, List.forall_mem_cons.mpr ⟨rfl, quietBehind.noBracket⟩⟩

theorem WrittenInside.noBracket {members : List WrittenClause} {tokens : List Token}
    (isInside : WrittenInside members tokens) : ∀ token ∈ tokens, token.isBracket = false := by
  cases isInside with
  | empty quiet => exact quiet.noBracket
  | listed written further isEnding =>
      refine List.forall_mem_append.mpr ⟨written.noBracket, ?_⟩
      exact List.forall_mem_append.mpr ⟨further.noBracket, isEnding.noBracket⟩

end FactoryProxy.Php
