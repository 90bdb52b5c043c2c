import FactoryProxy.Name.Scope
import FactoryProxy.Proofs.Text.Trimming

/-!
Contract: how a reference is read.

White space around a reference does not count. What stands before its first separator tells
where the rest is looked for: nothing marks a full name, the keyword `namespace` the current
namespace, and anything else may be an import.

Owns: the first segment of a reference and what stands below it, the two kinds of references
that no import concerns, and the full name by these cases.
Does not own: the imports in force.
-/

namespace FactoryProxy

/-! ## The first separator -/

namespace Text

/-- The cut at the first separator by what stands before it. -/
theorem cutAtFirst_eq {α : Type} (isSeparator : α → Bool) (elements : List α) :
    cutAtFirst isSeparator elements =
      (elements.dropWhile (fun element => !isSeparator element)).tail?.map
        (fun rest => (elements.takeWhile (fun element => !isSeparator element), rest)) := by
  induction elements with
  | nil => rfl
  | cons head tail inductionHypothesis =>
      unfold cutAtFirst
      cases separates : isSeparator head with
      | true => simp [separates]
      | false =>
          rw [List.dropWhile_cons_of_pos (by simp [separates]),
            List.takeWhile_cons_of_pos (by simp [separates]), inductionHypothesis,
            Option.map_map]
          rfl

end Text

namespace Name

/-! ## References -/

/-- A name with what may stand below it. -/
def extended (parent : String) : Option String → String
  | none => parent
  | some rest => join parent rest

/-- What stands before the first separator of a reference, all of it if there is none. -/
def firstSegment (reference : String) : String :=
  String.ofList ((Text.trimBlank reference).toList.takeWhile (fun c => !isSeparator c))

/-- What stands behind the first separator of a reference, if it has one. -/
def below? (reference : String) : Option String :=
  ((Text.trimBlank reference).toList.dropWhile (fun c => !isSeparator c)).tail?.map String.ofList

/-- The reference is a full name behind a separator. -/
def IsComplete (reference : String) : Prop :=
  firstSegment reference = "" ∧ (below? reference).isSome = true

/-- The reference is a name below the keyword for the current namespace. -/
def IsKeywordRelative (reference : String) : Prop :=
  Text.sameFolded (firstSegment reference) "namespace" = true ∧ (below? reference).isSome = true

instance (reference : String) : Decidable (IsComplete reference) :=
  inferInstanceAs (Decidable (_ ∧ _))

instance (reference : String) : Decidable (IsKeywordRelative reference) :=
  inferInstanceAs (Decidable (_ ∧ _))

theorem toList_join (parent child : String) :
    (join parent child).toList = parent.toList ++ separator :: child.toList := by
  simp [join]

/-- What is left behind a first segment starts with the separator. -/
theorem eq_separator_of_dropWhile {characters behind : List Char} {first : Char}
    (rest : characters.dropWhile (fun c => !isSeparator c) = first :: behind) :
    first = separator := by
  have stops := List.head?_dropWhile_not (fun c => !isSeparator c) characters
  rw [rest] at stops
  simpa [isSeparator] using stops

/-- A reference is its first segment with what stands below it. -/
theorem trimBlank_eq_extended (reference : String) :
    Text.trimBlank reference = extended (firstSegment reference) (below? reference) := by
  have isWhole := List.takeWhile_append_dropWhile (p := fun c => !isSeparator c)
    (l := (Text.trimBlank reference).toList)
  apply String.toList_injective
  unfold below? firstSegment
  cases rest : (Text.trimBlank reference).toList.dropWhile (fun c => !isSeparator c) with
  | nil =>
      rw [rest, List.append_nil] at isWhole
      simp [extended, isWhole]
  | cons first behind =>
      rw [rest] at isWhole
      have separates : first = separator := eq_separator_of_dropWhile rest
      simp only [List.tail?_cons, Option.map_some, extended, toList_join, String.toList_ofList]
      rw [← separates]
      exact isWhole.symm

/-- No separator stands in the first segment. -/
theorem isSeparator_of_mem_firstSegment {reference : String} {c : Char}
    (member : c ∈ (firstSegment reference).toList) : isSeparator c = false := by
  rw [firstSegment, String.toList_ofList] at member
  have outside := List.all_eq_true.mp List.all_takeWhile c member
  simpa using outside

theorem splitOnce_trimBlank (reference : String) :
    Text.splitOnce separator (Text.trimBlank reference) =
      (below? reference).map (fun rest => (firstSegment reference, rest)) := by
  have sameTest : (· == separator) = isSeparator := rfl
  unfold Text.splitOnce below? firstSegment
  rw [sameTest, Text.cutAtFirst_eq, Option.map_map, Option.map_map]
  simp only [Function.comp_def]

namespace NameScope

/-- The full name by the first segment of the reference. -/
theorem resolve_eq (scope : NameScope) (reference : String) :
    scope.resolve reference =
      match below? reference with
      | none => (scope.imported? (firstSegment reference)).getD
          (scope.qualify (firstSegment reference))
      | some rest =>
        if firstSegment reference = "" then rest
        else if Text.sameFolded (firstSegment reference) "namespace" then scope.qualify rest
        else
          match scope.imported? (firstSegment reference) with
          | some target => join target rest
          | none => scope.qualify (join (firstSegment reference) rest) := by
  have isWhole := trimBlank_eq_extended reference
  have isSplit := splitOnce_trimBlank reference
  have starts : ∀ first behind, (firstSegment reference).toList = first :: behind →
      isSeparator first = false := by
    intro first behind isFirst
    exact isSeparator_of_mem_firstSegment (isFirst ▸ List.mem_cons_self)
  unfold resolve
  dsimp only
  cases below : below? reference with
  | none =>
      rw [below, extended] at isWhole
      rw [below, Option.map_none] at isSplit
      rw [isSplit, isWhole]
      cases characters : (firstSegment reference).toList with
      | nil => rfl
      | cons first behind => simp [starts first behind characters]
  | some rest =>
      rw [below, extended] at isWhole
      rw [below, Option.map_some] at isSplit
      rw [isSplit, isWhole, toList_join]
      by_cases isEmpty : firstSegment reference = ""
      · have isFirst : isSeparator separator = true := by decide
        simp [isEmpty, isFirst]
      · have isNonempty : (firstSegment reference).toList ≠ [] := by
          simpa [String.toList_eq_nil_iff] using isEmpty
        obtain ⟨first, behind, characters⟩ := List.exists_cons_of_ne_nil isNonempty
        rw [characters, List.cons_append]
        dsimp only
        rw [if_neg (by simp [starts first behind characters])]
        exact (if_neg isEmpty).symm

variable {scope : NameScope} {reference : String}

theorem resolve_of_complete (complete : IsComplete reference) :
    scope.resolve reference = (below? reference).getD "" := by
  obtain ⟨isEmpty, hasRest⟩ := complete
  obtain ⟨rest, below⟩ := Option.isSome_iff_exists.mp hasRest
  rw [resolve_eq, below]
  exact if_pos isEmpty

theorem resolve_of_keywordRelative (relative : IsKeywordRelative reference) :
    scope.resolve reference = scope.qualify ((below? reference).getD "") := by
  obtain ⟨isKeyword, hasRest⟩ := relative
  obtain ⟨rest, below⟩ := Option.isSome_iff_exists.mp hasRest
  have isNonempty : firstSegment reference ≠ "" := by
    intro isEmpty
    rw [isEmpty] at isKeyword
    exact absurd isKeyword (by decide)
  rw [resolve_eq, below]
  dsimp only
  rw [if_neg isNonempty, if_pos isKeyword]
  rfl

/-- Any other reference is an import or a name in the current namespace. -/
theorem resolve_of_local (notComplete : ¬ IsComplete reference)
    (notRelative : ¬ IsKeywordRelative reference) :
    scope.resolve reference =
      match scope.imported? (firstSegment reference) with
      | some target => extended target (below? reference)
      | none => scope.qualify (Text.trimBlank reference) := by
  have isWhole := trimBlank_eq_extended reference
  rw [resolve_eq, isWhole]
  cases below : below? reference with
  | none => cases scope.imported? (firstSegment reference) <;> rfl
  | some rest =>
      have hasRest : (below? reference).isSome = true := by rw [below]; rfl
      have isNonempty : firstSegment reference ≠ "" :=
        fun isEmpty => notComplete ⟨isEmpty, hasRest⟩
      have noKeyword : ¬ Text.sameFolded (firstSegment reference) "namespace" = true :=
        fun isKeyword => notRelative ⟨isKeyword, hasRest⟩
      dsimp only
      rw [if_neg isNonempty, if_neg noKeyword]
      rfl

end NameScope

end Name

end FactoryProxy
