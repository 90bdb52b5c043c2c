import FactoryProxy.Proofs.Php.Comments
import FactoryProxy.Proofs.Reflection.MovedNames
import FactoryProxy.Proofs.Sequencing

/-!
Contract: moved default values with comments between their tokens.

A comment inside a name is resolved as part of it, and behind `new` it keeps a bare class name
from being replaced. Everywhere else the same names are replaced by the same full names.

Owns: the names of an expression in order, the replacements among them, and which of them
comments leave as they are.
-/

namespace FactoryProxy

namespace Php.Expression

/-! ## Names in order -/

/-- A name and the role in which it is read. -/
structure Naming where
  role : Role
  written : String
deriving DecidableEq, Repr

mutual

/-- The names of an expression from left to right. -/
def namings : Expression → List Naming
  | .leaf _ => []
  | .name text => [⟨.mention, text⟩]
  | .constantAccess owner _ =>
    match owner.name? with
    | some text => [⟨.reference, text⟩]
    | none => owner.namings
  | .instantiation intro className arguments =>
    ⟨createdRole intro, className⟩ :: namingsOf arguments
  | .compound parts => namingsOf parts

def namingsOf : List Expression → List Naming
  | [] => []
  | part :: rest => part.namings ++ namingsOf rest

end

/-- The same name with comments put into it. Comments before it may only take from it the role
of a class. -/
structure Naming.Commented (bare commented : Naming) : Prop where
  inName : NameCommented bare.written commented.written
  roles : commented.role = bare.role ∨ bare.role = .reference ∧ commented.role = .mention

theorem createdRole_commented {intro more : List Token} (inIntro : Php.Commented intro more) :
    createdRole more = createdRole intro ∨
      createdRole intro = .reference ∧ createdRole more = .mention := by
  have kept : createdRole intro = .mention → createdRole more = .mention := by
    unfold createdRole
    intro apart
    split at apart
    · rename_i found
      obtain ⟨token, member, isApart⟩ := List.any_eq_true.mp found
      exact if_pos (List.any_eq_true.mpr ⟨token, inIntro.subset member, isApart⟩)
    · cases apart
  cases before : createdRole intro with
  | mention => exact .inl (kept before)
  | reference => cases createdRole more <;> simp

theorem name?_commented {value other : Expression} (added : value.Commented other) :
    Option.Rel NameCommented value.name? other.name? := by
  cases added with
  | name inName => exact .some inName
  | leaf | constantAccess | instantiation | compound => exact .none

mutual

theorem namings_commented {value other : Expression} (added : value.Commented other) :
    List.Forall₂ Naming.Commented value.namings other.namings := by
  cases added with
  | leaf token => exact .nil
  | name inName => exact .cons ⟨inName, .inl rfl⟩ .nil
  | @constantAccess owner other _ _ inOwner _ =>
      have ofOwner := namings_commented inOwner
      unfold namings
      match owner.name?, other.name?, name?_commented inOwner with
      | some _, some _, .some inName => exact .cons ⟨inName, .inl rfl⟩ .nil
      | none, none, .none => exact ofOwner
  | instantiation inIntro inName inArguments =>
      exact .cons ⟨inName, createdRole_commented inIntro⟩ (namingsOf_commented inArguments)
  | compound inParts => exact namingsOf_commented inParts

theorem namingsOf_commented {parts others : List Expression} (added : CommentedIn parts others) :
    List.Forall₂ Naming.Commented (namingsOf parts) (namingsOf others) := by
  cases added with
  | nil => exact .nil
  | cons inPart inRest =>
      exact List.rel_append (namings_commented inPart) (namingsOf_commented inRest)
  | inserted _ behind =>
      rw [namingsOf, namings, List.nil_append]
      exact namingsOf_commented behind

end

end Php.Expression

namespace Reflection

open Php (Expression NameCommented)
open Php.Expression (Naming Role)

variable {declaring : Declaring}

/-! ## Replacements -/

/-- The name that a segment replaces, with its replacement. -/
def Segment.move? : Segment → Option (String × String)
  | kept _ => none
  | replaced written replacement => some (written, replacement)

/-- The names that are replaced in the moved value with their replacements, in order. -/
def Declaring.moves (declaring : Declaring) (value : Expression) : List (String × String) :=
  (declaring.segments value).filterMap Segment.move?

/-- What replaces a name, if anything does. -/
def Declaring.moveOf? (declaring : Declaring) (naming : Naming) : Option (String × String) :=
  (nameSegment declaring naming.role naming.written).move?

mutual

/-- Every replacement is that of a name of the expression. -/
theorem filterMap_segments (declaring : Declaring) :
    ∀ value : Expression,
      (declaring.segments value).filterMap Segment.move? =
        value.namings.filterMap declaring.moveOf?
  | .leaf _ => by rfl
  | .name _ => by
      simp only [Declaring.segments, Expression.namings, List.filterMap_cons, List.filterMap_nil,
        Declaring.moveOf?, nameSegment]
  | .constantAccess owner access => by
      unfold Expression.namings
      cases isName : owner.name? with
      | some text =>
          rw [name?_eq_some isName, segments_constantAccess_name]
          simp only [List.filterMap_cons, List.filterMap_nil, Segment.move?, Declaring.moveOf?]
      | none =>
          rw [segments_constantAccess isName, List.filterMap_append, filterMap_segments declaring owner]
          exact List.append_nil _
  | .instantiation intro className arguments => by
      simp only [segments_instantiation, Expression.namings, List.filterMap_cons, Segment.move?,
        Declaring.moveOf?, filterMap_segmentsOf declaring arguments]
  | .compound parts => filterMap_segmentsOf declaring parts

theorem filterMap_segmentsOf (declaring : Declaring) :
    ∀ parts : List Expression,
      (declaring.segmentsOf parts).filterMap Segment.move? =
        (Expression.namingsOf parts).filterMap declaring.moveOf?
  | [] => by rfl
  | part :: rest => by
      rw [Declaring.segmentsOf, Expression.namingsOf, List.filterMap_append, List.filterMap_append,
        filterMap_segments declaring part, filterMap_segmentsOf declaring rest]

end

/-! ## Single names with comments -/

theorem moveOf?_mention (declaring : Declaring) (written : String) :
    declaring.moveOf? ⟨.mention, written⟩ =
      if Name.separator ∈ written.toList then
        some (written, Name.fullyQualified (declaring.scope.resolve written))
      else none := by
  simp only [Declaring.moveOf?, nameSegment, mention_eq]
  split <;> simp only [Segment.move?]

theorem moveOf?_reference (declaring : Declaring) (written : String) :
    declaring.moveOf? ⟨.reference, written⟩ =
      (declaring.classNamed? written).map (fun name => (written, Name.fullyQualified name)) := by
  simp only [Declaring.moveOf?, nameSegment, Declaring.reference]
  cases declaring.classNamed? written <;> simp only [Segment.move?, Option.map]

/-- A name with a separator is no keyword. -/
theorem classNamed?_of_separator {written : String} (separated : Name.separator ∈ written.toList) :
    declaring.classNamed? written = some (declaring.scope.resolve written) := by
  refine classNamed?_eq_some_iff.mpr (.resolved ?_)
  have inWord : Name.separator ∈ (Text.fold (Text.trimBlank written)).toList := by
    rw [Text.toList_fold]
    exact List.mem_map_of_mem (f := Char.toLower) (Text.mem_trim separated (by decide))
  have noneSeparated : ∀ word ∈ ["self", "static", "parent"],
      Name.separator ∉ (Text.fold word).toList := by
    decide +kernel
  intro word isKeyword
  rw [Bool.eq_false_iff]
  intro same
  rw [Text.sameFolded, beq_iff_eq] at same
  rw [same] at inWord
  exact noneSeparated word isKeyword inWord

theorem moveOf?_of_separator {written : String} (role : Role)
    (separated : Name.separator ∈ written.toList) :
    declaring.moveOf? ⟨role, written⟩ =
      some (written, Name.fullyQualified (declaring.scope.resolve written)) := by
  cases role with
  | mention => rw [moveOf?_mention, if_pos separated]
  | reference => rw [moveOf?_reference, classNamed?_of_separator separated, Option.map_some]

theorem fullyQualified_inj {left right : String} :
    Name.fullyQualified left = Name.fullyQualified right ↔ left = right := by
  simp [Name.fullyQualified]

/-- The same name, with comments put into it, and the same replacement. -/
def SameMove (bare commented : String × String) : Prop :=
  NameCommented bare.1 commented.1 ∧ commented.2 = bare.2

/-- Comments put into the name are not seen when it is resolved, and comments before it take
from it no role in which a bare word is replaced. -/
def KeepsMove (declaring : Declaring) (bare commented : Naming) : Prop :=
  declaring.scope.resolve commented.written = declaring.scope.resolve bare.written ∧
    (commented.role = bare.role ∨ Name.separator ∈ bare.written.toList ∨
      declaring.classNamed? bare.written = none)

theorem sameMove_refl (move : String × String) : SameMove move move :=
  ⟨⟨Php.textCommented_refl move.1, fun _ => rfl⟩, rfl⟩

variable {bare commented : Naming}

/-- A bare word with comments before it is replaced as without them, or not at all. -/
theorem moveOf?_bareWord (added : bare.Commented commented)
    (noSeparator : Name.separator ∉ bare.written.toList) :
    declaring.moveOf? commented =
      if commented.role = bare.role then declaring.moveOf? bare else none := by
  obtain ⟨role, written⟩ := commented
  obtain ⟨inName, roles⟩ := added
  have sameName : written = bare.written := inName.2 noSeparator
  subst sameName
  split
  · rename_i sameRole
    rw [show role = bare.role from sameRole]
  · rename_i otherRole
    obtain ⟨_, isMention⟩ := roles.resolve_left otherRole
    rw [show role = .mention from isMention, moveOf?_mention, if_neg noSeparator]

theorem keepsNoMore (declaring : Declaring) :
    Sequencing.KeepsNoMore Naming.Commented declaring.moveOf? declaring.moveOf? := by
  intro plain other added isKept
  have noSeparator : Name.separator ∉ plain.written.toList := by
    intro separated
    have isReplaced : declaring.moveOf? plain = some _ :=
      moveOf?_of_separator plain.role separated
    rw [isKept] at isReplaced
    cases isReplaced
  rw [moveOf?_bareWord added noSeparator, isKept, ite_self]

theorem sameMove_iff_keepsMove (added : bare.Commented commented) :
    Option.Rel SameMove (declaring.moveOf? bare) (declaring.moveOf? commented) ↔
      KeepsMove declaring bare commented := by
  by_cases separated : Name.separator ∈ bare.written.toList
  · rw [moveOf?_of_separator bare.role separated,
      moveOf?_of_separator commented.role (added.inName.1.subset separated)]
    simp [SameMove, KeepsMove, added.inName, separated, fullyQualified_inj]
  · rw [moveOf?_bareWord added separated]
    unfold KeepsMove
    rw [added.inName.2 separated]
    by_cases sameRole : commented.role = bare.role
    · cases declaring.moveOf? bare <;> simp [sameRole, sameMove_refl]
    · -- Only the class behind `new` has a role that a comment takes from it.
      obtain ⟨isReference, _⟩ := added.roles.resolve_left sameRole
      have isMove : declaring.moveOf? bare = (declaring.classNamed? bare.written).map
          (fun name => (bare.written, Name.fullyQualified name)) := by
        rw [← moveOf?_reference, ← isReference]
      rw [isMove]
      cases declaring.classNamed? bare.written <;> simp [sameRole, separated]

/-! ## Default values with comments -/

/-- The moved value has the same replaced names with the same replacements as without comments
exactly if every name keeps its own: no comment inside it changes what it denotes, and none
stands between `new` and a bare word that denotes a class. -/
theorem moves_commented_iff (declaring : Declaring) {value other : Expression}
    (added : value.Commented other) :
    List.Forall₂ SameMove (declaring.moves value) (declaring.moves other) ↔
      List.Forall₂ (KeepsMove declaring) value.namings other.namings := by
  unfold Declaring.moves
  rw [filterMap_segments, filterMap_segments]
  apply Sequencing.forall₂_filterMap_iff (Expression.namings_commented added)
    (keepsNoMore declaring)
  intro plain commented ofNaming
  exact sameMove_iff_keepsMove ofNaming

/-- The value `new Lib\A(self::X)` with a gap behind `new` and parts behind the argument. -/
def createdValue (gap : List Php.Token) (behind : List Expression) : Expression :=
  .instantiation (⟨.word, "new"⟩ :: gap) "Lib\\A"
    (.leaf ⟨.opening .round, "("⟩ :: .constantAccess (.name "self") "::X" :: behind ++
      [.leaf ⟨.closing .round, ")"⟩])

theorem qualified_creation_keeps_moves :
    List.Forall₂ SameMove
      (Declaring.moves ⟨.ofNamespace "N", "N\\F", none⟩ (createdValue [⟨.blank, " "⟩] []))
      (Declaring.moves ⟨.ofNamespace "N", "N\\F", none⟩
        (createdValue [⟨.comment, "/* c */"⟩, ⟨.blank, " "⟩] [.leaf ⟨.comment, "/* c */"⟩])) ∧
      Declaring.moves ⟨.ofNamespace "N", "N\\F", none⟩ (createdValue [⟨.blank, " "⟩] []) =
        [("Lib\\A", "\\N\\Lib\\A"), ("self", "\\N\\F")] := by
  have isComment : Php.Token.IsComment ⟨.comment, "/* c */"⟩ :=
    ⟨rfl, "<?php /* c */", by decide +kernel⟩
  have sameName (text : String) : NameCommented text text :=
    ⟨Php.textCommented_refl text, fun _ => rfl⟩
  have added : (createdValue [⟨.blank, " "⟩] []).Commented
      (createdValue [⟨.comment, "/* c */"⟩, ⟨.blank, " "⟩] [.leaf ⟨.comment, "/* c */"⟩]) := by
    refine .instantiation (.kept _ (.inserted isComment (.kept _ .nil))) (sameName _) ?_
    refine .cons (.leaf _) (.cons ?_ (.inserted isComment (.cons (.leaf _) .nil)))
    exact .constantAccess (.name (sameName _)) (Php.textCommented_refl _)
  refine ⟨(moves_commented_iff _ added).mpr ?_, by decide +kernel⟩
  exact .cons ⟨rfl, .inr (.inl (by decide +kernel))⟩ (.cons ⟨rfl, .inl rfl⟩ .nil)

set_option maxRecDepth 100000 in
/-- Behind `new` a comment keeps a class name in its own namespace, and a comment in front of a
separator hides an import. -/
theorem comments_change_replacements :
    defaultsIn "<?php namespace N; use Lib\\Foo;
        class F \x7b function __construct($x = new A(), $y = Foo\\Bar::C) \x7b\x7d \x7d" =
        [some "new \\N\\A()", some "\\Lib\\Foo\\Bar::C"] ∧
      defaultsIn "<?php namespace N; use Lib\\Foo;
        class F \x7b function __construct($x = new /* c */ A(), $y = Foo/* c */\\Bar::C) \x7b\x7d \x7d" =
        [some "new /* c */ A()", some "\\N\\Foo/* c */\\Bar::C"] ∧
      (Php.SourceFile.ofText "<?php namespace N; use Lib\\Foo;
        class F \x7b function __construct($x = new /* c */ A(), $y = Foo/* c */\\Bar::C)
        \x7b\x7d \x7d").wellFormed = true := by
  decide +kernel

end Reflection

end FactoryProxy
