import FactoryProxy.Proofs.Php.NamePlaces
import FactoryProxy.Proofs.Text.Trimming
import FactoryProxy.Reflection.DefaultValue

/-!
Contract: what the names of a default value denote.

Owns: the denotation of a name in the declaring class, the segment of a single name, and
the reading of a full name in another namespace.

Names are resolved without the white space at their ends, so a full name that ends in
white space loses it when it is read again.
-/

namespace FactoryProxy.Reflection

open Php.Expression (Role)

/-! ## Denotation -/

/-- What a name denotes in the declaring class. Without a parent, `parent` denotes nothing,
and neither does a bare word that does not stand for a class. -/
inductive Denotes (declaring : Declaring) : Role → String → String → Prop where
  | ownClass {written : String}
      (isKeyword : Text.sameFolded (Text.trimBlank written) "self" = true ∨
        Text.sameFolded (Text.trimBlank written) "static" = true) :
      Denotes declaring .reference written declaring.className
  | parentClass {written parent : String}
      (isKeyword : Text.sameFolded (Text.trimBlank written) "parent" = true)
      (isParent : declaring.parent = some parent) : Denotes declaring .reference written parent
  | resolved {written : String}
      (noKeyword : ∀ word ∈ ["self", "static", "parent"],
        Text.sameFolded (Text.trimBlank written) word = false) :
      Denotes declaring .reference written (declaring.scope.resolve written)
  | qualified {written : String} (separated : Name.separator ∈ written.toList) :
      Denotes declaring .mention written (declaring.scope.resolve written)

variable {declaring : Declaring} {role : Role} {written name : String}

theorem classNamed?_eq_some_iff :
    declaring.classNamed? written = some name ↔ Denotes declaring .reference written name := by
  have isWord : ∀ word, Text.fold word = word →
      (Text.sameFolded (Text.trimBlank written) word = true ↔
        Text.fold (Text.trimBlank written) = word) := by
    intro word folded
    rw [Text.sameFolded, beq_iff_eq, folded]
  have isSelf := isWord "self" (by decide)
  have isStatic := isWord "static" (by decide)
  have isParent := isWord "parent" (by decide)
  unfold Declaring.classNamed?
  dsimp only
  constructor
  · intro isNamed
    split at isNamed
    · rename_i own
      rw [← Option.some.inj isNamed]
      exact .ownClass (own.imp isSelf.mpr isStatic.mpr)
    · rename_i noOwn
      split at isNamed
      · rename_i above
        exact .parentClass (isParent.mpr above) isNamed
      · rename_i noParent
        rw [← Option.some.inj isNamed]
        refine .resolved ?_
        intro word member
        apply Bool.eq_false_iff.mpr
        simp only [List.mem_cons, List.not_mem_nil, or_false] at member
        rcases member with rfl | rfl | rfl
        · exact fun same => noOwn (.inl (isSelf.mp same))
        · exact fun same => noOwn (.inr (isStatic.mp same))
        · exact fun same => noParent (isParent.mp same)
  · intro denotes
    cases denotes with
    | ownClass isKeyword =>
        rw [if_pos (isKeyword.imp isSelf.mp isStatic.mp)]
    | parentClass isKeyword isAbove =>
        have word := isParent.mp isKeyword
        rw [word, if_neg (by decide), if_pos rfl]
        exact isAbove
    | resolved noKeyword =>
        have noSelf := noKeyword "self" (by simp)
        have noStatic := noKeyword "static" (by simp)
        have noParent := noKeyword "parent" (by simp)
        rw [if_neg, if_neg]
        · intro word
          rw [isParent.mpr word] at noParent
          cases noParent
        · rintro (word | word)
          · rw [isSelf.mpr word] at noSelf
            cases noSelf
          · rw [isStatic.mpr word] at noStatic
            cases noStatic

/-- A name that is complete is read as it stands in every scope, up to white space at its
end. -/
theorem resolve_fullyQualified (scope : Name.NameScope) (name : String) :
    scope.resolve (Name.fullyQualified name) = Text.trimEnd Text.isBlank name := by
  have characters : (Text.trimBlank (Name.fullyQualified name)).toList =
      Name.separator :: Text.dropTail Text.isBlank name.toList := by
    have notBlank : Text.isBlank Name.separator = false := by decide
    simp only [Text.trimBlank, Text.trim, Name.fullyQualified, String.toList_append,
      String.toList_singleton, List.singleton_append, String.toList_ofList]
    rw [List.dropWhile_cons_of_neg (by simp [notBlank]), Text.dropTail_cons _ notBlank]
  have isSeparator : Name.isSeparator Name.separator = true := by decide
  unfold Name.NameScope.resolve
  dsimp only
  rw [characters]
  dsimp only
  rw [if_pos isSeparator]
  rfl

/-! ## Segments of single names -/

/-- The segment of a name in its role. -/
def nameSegment (declaring : Declaring) : Role → String → Segment
  | .reference, written => declaring.reference written
  | .mention, written => declaring.mention written

theorem mention_eq (declaring : Declaring) (written : String) :
    declaring.mention written =
      if Name.separator ∈ written.toList then
        .replaced written (Name.fullyQualified (declaring.scope.resolve written))
      else .kept written := by
  simp [Declaring.mention, Name.isSeparator]

/-- A name is replaced by the full name that it denotes, and kept if it denotes none. -/
theorem nameSegment_cases (declaring : Declaring) (role : Role) (written : String) :
    (∃ name, Denotes declaring role written name ∧
        nameSegment declaring role written = .replaced written (Name.fullyQualified name)) ∨
      (∀ name, ¬ Denotes declaring role written name) ∧
        nameSegment declaring role written = .kept written := by
  cases role with
  | reference =>
      cases isNamed : declaring.classNamed? written with
      | some name =>
          left
          refine ⟨name, classNamed?_eq_some_iff.mp isNamed, ?_⟩
          simp only [nameSegment, Declaring.reference, isNamed]
      | none =>
          right
          constructor
          · intro name denotes
            rw [classNamed?_eq_some_iff.mpr denotes] at isNamed
            cases isNamed
          · simp only [nameSegment, Declaring.reference, isNamed]
  | mention =>
      by_cases separated : Name.separator ∈ written.toList
      · left
        refine ⟨declaring.scope.resolve written, .qualified separated, ?_⟩
        exact (mention_eq declaring written).trans (if_pos separated)
      · right
        constructor
        · intro name denotes
          cases denotes with
          | qualified member => exact separated member
        · exact (mention_eq declaring written).trans (if_neg separated)

/-- What a name denotes is unique. -/
theorem Denotes.unique {left right : String} (isLeft : Denotes declaring role written left)
    (isRight : Denotes declaring role written right) : left = right := by
  cases role with
  | reference =>
      rw [← classNamed?_eq_some_iff] at isLeft isRight
      exact Option.some.inj (isLeft.symm.trans isRight)
  | mention =>
      cases isLeft
      cases isRight
      rfl

end FactoryProxy.Reflection
