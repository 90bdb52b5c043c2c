import FactoryProxy.Php.Expression

/-!
Contract: the names of an expression and where they stand.

A name stands left of the access to a constant, behind `new`, or anywhere else; the
first two are references to classes. Places are counted in characters of the exact text.

Owns: the places of names as a relation over the expression, their cases by its parts,
and the text found there.
-/

namespace FactoryProxy.Php.Expression

/-! ## Names -/

/-- The role in which a name stands: for a class, or for anything else. -/
inductive Role where
  | reference
  | mention
deriving DecidableEq, Repr

/-- The role of the class name behind `new`: for a class only if nothing but white space
stands between. -/
def createdRole (intro : List Token) : Role :=
  if intro.any (fun token => token.isTrivia && token.kind != .blank) then .mention else .reference

theorem createdRole_of_direct {intro : List Token}
    (direct : ∀ token ∈ intro, token.isTrivia = true → token.kind = .blank) :
    createdRole intro = .reference := by
  apply if_neg
  intro apart
  obtain ⟨token, member, isApart⟩ := List.any_eq_true.mp apart
  rw [Bool.and_eq_true] at isApart
  rw [direct token member isApart.1] at isApart
  cases isApart.2

/-- The name stands in the expression behind this many characters. No name stands in the
text behind the owner of a constant. -/
inductive NameAt : Expression → Nat → Role → String → Prop where
  | mention (text : String) : NameAt (.name text) 0 .mention text
  | owner (text access : String) : NameAt (.constantAccess (.name text) access) 0 .reference text
  | created (intro : List Token) (className : String) (arguments : List Expression) :
      NameAt (.instantiation intro className arguments) (tokensText intro).length .reference
        className
  | inOwner {owner : Expression} {access written : String} {start : Nat} {role : Role}
      (isNoName : owner.name? = none) (inside : NameAt owner start role written) :
      NameAt (.constantAccess owner access) start role written
  | inArgument {intro : List Token} {className written : String} {before after : List Expression}
      {part : Expression} {start : Nat} {role : Role} (inside : NameAt part start role written) :
      NameAt (.instantiation intro className (before ++ part :: after))
        ((tokensText intro).length + className.length + (textOf before).length + start) role
        written
  | inPart {written : String} {before after : List Expression} {part : Expression} {start : Nat}
      {role : Role} (inside : NameAt part start role written) :
      NameAt (.compound (before ++ part :: after)) ((textOf before).length + start) role written

mutual

/-- Behind every `new` of the expression a class name follows after white space alone. -/
def CreatesDirectly : Expression → Prop
  | .leaf _ => True
  | .name _ => True
  | .constantAccess owner _ => owner.CreatesDirectly
  | .instantiation intro _ arguments =>
    (∀ token ∈ intro, token.isTrivia = true → token.kind = .blank) ∧ CreateDirectly arguments
  | .compound parts => CreateDirectly parts

def CreateDirectly : List Expression → Prop
  | [] => True
  | part :: rest => part.CreatesDirectly ∧ CreateDirectly rest

end

mutual

/-- No comment stands between a `new` of the expression and its class name. -/
def CreatesUncommented : Expression → Prop
  | .leaf _ => True
  | .name _ => True
  | .constantAccess owner _ => owner.CreatesUncommented
  | .instantiation intro _ arguments =>
    (∀ token ∈ intro, token.kind ≠ .comment) ∧ CreateUncommented arguments
  | .compound parts => CreateUncommented parts

def CreateUncommented : List Expression → Prop
  | [] => True
  | part :: rest => part.CreatesUncommented ∧ CreateUncommented rest

end

/-- The name stands in one of the parts, counted from the start of the first one. -/
def NameIn (parts : List Expression) (start : Nat) (role : Role) (written : String) : Prop :=
  ∃ before part after inside, parts = before ++ part :: after ∧
    start = (textOf before).length + inside ∧ NameAt part inside role written

variable {start : Nat} {role : Role} {written : String}

theorem nameIn_nil : ¬ NameIn [] start role written := by
  rintro ⟨before, part, after, inside, isSplit, _⟩
  simp at isSplit

theorem nameIn_cons {part : Expression} {rest : List Expression} :
    NameIn (part :: rest) start role written ↔
      NameAt part start role written ∨
        ∃ behind, start = part.text.length + behind ∧ NameIn rest behind role written := by
  constructor
  · rintro ⟨before, middle, after, inside, isSplit, isStart, named⟩
    cases before with
    | nil =>
        obtain ⟨rfl, _⟩ := List.cons.inj isSplit
        left
        simpa [isStart, textOf] using named
    | cons first others =>
        obtain ⟨rfl, isRest⟩ := List.cons.inj isSplit
        right
        refine ⟨(textOf others).length + inside, ?_, others, middle, after, inside, isRest, rfl,
          named⟩
        rw [isStart, textOf, String.length_append, Nat.add_assoc]
  · rintro (named | ⟨behind, isStart, before, middle, after, inside, rfl, rfl, named⟩)
    · exact ⟨[], part, rest, start, rfl, by simp [textOf], named⟩
    · refine ⟨part :: before, middle, after, inside, rfl, ?_, named⟩
      rw [isStart, textOf, String.length_append, Nat.add_assoc]

theorem nameAt_compound {parts : List Expression} :
    NameAt (.compound parts) start role written ↔ NameIn parts start role written := by
  constructor
  · intro named
    cases named with
    | inPart inside => exact ⟨_, _, _, _, rfl, rfl, inside⟩
  · rintro ⟨before, part, after, inside, rfl, rfl, named⟩
    exact .inPart named

theorem nameAt_instantiation {intro : List Token} {className : String}
    {arguments : List Expression} :
    NameAt (.instantiation intro className arguments) start role written ↔
      (start = (tokensText intro).length ∧ role = .reference ∧ written = className) ∨
        ∃ behind, start = (tokensText intro).length + className.length + behind ∧
          NameIn arguments behind role written := by
  constructor
  · intro named
    cases named with
    | created => exact .inl ⟨rfl, rfl, rfl⟩
    | inArgument inside => exact .inr ⟨_, Nat.add_assoc _ _ _, _, _, _, _, rfl, rfl, inside⟩
  · rintro (⟨rfl, rfl, rfl⟩ | ⟨behind, rfl, before, part, after, inside, rfl, rfl, named⟩)
    · exact .created _ _ _
    · rw [← Nat.add_assoc]
      exact .inArgument named

theorem nameAt_constantAccess_name {text access : String} :
    NameAt (.constantAccess (.name text) access) start role written ↔
      start = 0 ∧ role = .reference ∧ written = text := by
  constructor
  · intro named
    cases named with
    | owner => exact ⟨rfl, rfl, rfl⟩
    | inOwner isNoName => cases isNoName
  · rintro ⟨rfl, rfl, rfl⟩
    exact .owner _ access

theorem nameAt_constantAccess {owner : Expression} {access : String}
    (isNoName : owner.name? = none) :
    NameAt (.constantAccess owner access) start role written ↔
      NameAt owner start role written := by
  constructor
  · intro named
    cases named with
    | owner => cases isNoName
    | inOwner _ inside => exact inside
  · intro inside
    exact .inOwner isNoName inside

theorem textOf_append (before after : List Expression) :
    textOf (before ++ after) = textOf before ++ textOf after := by
  induction before with
  | nil => simp [textOf]
  | cons part rest inductionHypothesis =>
      rw [List.cons_append, textOf, textOf, inductionHypothesis, String.append_assoc]

/-- A name is found in the text at its place. -/
theorem NameAt.text_eq {value : Expression} (named : NameAt value start role written) :
    ∃ before after, value.text = before ++ written ++ after ∧ before.length = start := by
  induction named with
  | mention name => exact ⟨"", "", by simp [text], rfl⟩
  | owner name access => exact ⟨"", access, by simp [text], rfl⟩
  | created intro className arguments => exact ⟨tokensText intro, textOf arguments, rfl, rfl⟩
  | @inOwner owner access _ _ _ _ _ inductionHypothesis =>
      obtain ⟨before, after, isText, isStart⟩ := inductionHypothesis
      refine ⟨before, after ++ access, ?_, isStart⟩
      rw [text, isText, String.append_assoc]
  | @inArgument intro className _ earlier later part _ _ _ inductionHypothesis =>
      obtain ⟨before, after, isText, isStart⟩ := inductionHypothesis
      refine ⟨tokensText intro ++ className ++ textOf earlier ++ before,
        after ++ textOf later, ?_, ?_⟩
      · rw [text, textOf_append, textOf, isText]
        simp only [String.append_assoc]
      · simp only [String.length_append, isStart]
  | @inPart _ earlier later part _ _ _ inductionHypothesis =>
      obtain ⟨before, after, isText, isStart⟩ := inductionHypothesis
      refine ⟨textOf earlier ++ before, after ++ textOf later, ?_, ?_⟩
      · rw [text, textOf_append, textOf, isText]
        simp only [String.append_assoc]
      · rw [String.length_append, isStart]

end FactoryProxy.Php.Expression
