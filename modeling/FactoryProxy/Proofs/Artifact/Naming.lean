import FactoryProxy.Artifact.Basic
import FactoryProxy.Loading.Autoloader
import FactoryProxy.Proofs.FileSystem.Children
import FactoryProxy.Proofs.Text.Trimming

/-!
Contract: the way from the name of a generated interface to its type and back.

A generated name has no separators. Placed into the proxy namespace it is a type, from
which the loader takes the name back; and types differ ignoring case if their names do.

Owns: plain names, the names of their files, the round trip through the namespace, and
when two generated names are equal ignoring case.
-/

namespace FactoryProxy.Artifact

/-- The name is nonempty and has no separators. -/
structure IsPlain (name : String) : Prop where
  isNonempty : name.toList ≠ []
  isFree : ∀ c ∈ name.toList, Name.isSeparator c = false

/-! ## Generated names -/

theorem isFree_of_all {name : String}
    (free : name.toList.all (fun c => !Name.isSeparator c) = true) :
    ∀ c ∈ name.toList, Name.isSeparator c = false := by
  intro c member
  simpa using List.all_eq_true.mp free c member

theorem stripSeparators_of_plain {name : String} (plain : IsPlain name) :
    Name.stripSeparators name = name := by
  unfold Name.stripSeparators
  rw [List.filter_eq_self.mpr, String.ofList_toList]
  intro c member
  rw [plain.isFree c member]
  rfl

theorem isPlain_factoryName (className : String) : IsPlain (factoryName className) := by
  have isWhole : (factoryName className).toList =
      className.toList.filter (fun c => !Name.isSeparator c) ++ factorySuffix.toList := by
    simp [factoryName, Name.stripSeparators]
  constructor
  · rw [isWhole]
    exact List.append_ne_nil_of_right_ne_nil _ (by decide)
  · intro c member
    rw [isWhole] at member
    rcases List.mem_append.mp member with inClass | inSuffix
    · simpa using (List.mem_filter.mp inClass).2
    · exact isFree_of_all (by decide +kernel) c inSuffix

theorem isPlain_markerName : IsPlain markerName := by
  constructor
  · decide
  · exact isFree_of_all (by decide +kernel)

/-! ## Names of files -/

/-- The name of the file of an artifact. -/
def fileName (name : String) : String :=
  name ++ "." ++ sourceExtension

theorem isEntryName_fileName {name : String} (free : '/' ∉ name.toList) :
    IsEntryName (fileName name) := by
  have ends : (fileName name).toList = name.toList ++ ['.', 'p', 'h', 'p'] := by
    unfold fileName
    rw [String.toList_append, String.toList_append, List.append_assoc]
    rfl
  have different : ∀ other : String, other.toList.getLast? ≠ some 'p' → fileName name ≠ other := by
    rintro other notLast rfl
    rw [ends, List.getLast?_append] at notLast
    exact notLast rfl
  have extensionFree : ∀ c ∈ ['.', 'p', 'h', 'p'], Path.isSlash c = false := by
    simp [Path.isSlash]
  refine ⟨?_, different ".." (by decide), ?_⟩
  · rintro (isEmpty | isDot)
    · exact different "" (by decide) isEmpty
    · exact different "." (by decide) isDot
  · intro c member
    rw [ends] at member
    rcases List.mem_append.mp member with inName | inExtension
    · exact beq_false_of_ne (fun isSlash => free (isSlash ▸ inName))
    · exact extensionFree c inExtension

/-! ## Names ignoring case -/

/-- Factories have equal names ignoring case only if their classes do once stripped. -/
theorem fold_factoryName {left right : String}
    (same : Text.fold (factoryName left) = Text.fold (factoryName right)) :
    Text.fold (Name.stripSeparators left) = Text.fold (Name.stripSeparators right) := by
  unfold factoryName at same
  rw [Text.fold_append, Text.fold_append] at same
  exact String.append_left_inj _ |>.mp same

/-- No factory has the name of the marker. -/
theorem fold_factoryName_ne_marker (className : String) :
    Text.fold (factoryName className) ≠ Text.fold markerName := by
  intro same
  have sameLength := congrArg (fun text => text.toList.length) same
  have suffixLength : factorySuffix.toList.length = 28 := by decide
  have markerLength : markerName.toList.length = 17 := by decide
  simp only [factoryName, Text.toList_fold, List.length_map, String.toList_append,
    List.length_append, suffixLength, markerLength] at sameLength
  omega

/-! ## Types of the namespace -/

/-- The characters of a type in the namespace: the name, or the name behind the trimmed
namespace and a separator. -/
theorem toList_qualifiedName (namespaceName name : String) :
    (qualifiedName namespaceName name).toList =
      if (Name.trimSeparators namespaceName).toList = [] then name.toList
      else (Name.trimSeparators namespaceName).toList ++ Name.separator :: name.toList := by
  unfold qualifiedName
  by_cases isGlobal : (Name.trimSeparators namespaceName).toList = []
  · have isEmpty : (Name.trimSeparators namespaceName).isEmpty = true := by
      rw [String.isEmpty_iff, ← String.toList_inj]
      exact isGlobal
    rw [if_pos isGlobal]
    simp only [isEmpty, if_true]
  · have isNonempty : ¬ (Name.trimSeparators namespaceName).isEmpty = true := by
      rw [String.isEmpty_iff, ← String.toList_inj]
      exact isGlobal
    rw [if_neg isGlobal]
    simp [isNonempty, Name.join]

theorem trimLeading_qualifiedName {namespaceName name : String} (plain : IsPlain name) :
    Name.trimLeading (qualifiedName namespaceName name) = qualifiedName namespaceName name := by
  have starts : ∀ first, (qualifiedName namespaceName name).toList.head? = some first →
      Name.isSeparator first = false := by
    intro first isFirst
    rw [toList_qualifiedName] at isFirst
    split at isFirst
    · exact plain.isFree first (List.mem_of_mem_head? isFirst)
    · rename_i isInside
      obtain ⟨head, tail, isParent⟩ := List.exists_cons_of_ne_nil isInside
      rw [isParent] at isFirst
      have trimmed := (Text.trimmed_trim Name.isSeparator namespaceName).1
      apply trimmed first
      rw [show (Text.trim Name.isSeparator namespaceName).toList = head :: tail from isParent]
      exact isFirst
  unfold Name.trimLeading Text.trimStart
  rw [Text.dropWhile_eq_self starts, String.ofList_toList]

theorem dropFolded_append (characters rest : List Char) :
    dropFolded characters (characters ++ rest) = some rest := by
  induction characters with
  | nil => rfl
  | cons head tail inductionHypothesis =>
      rw [List.cons_append, dropFolded, if_pos rfl]
      exact inductionHypothesis

/-- The loader takes the name back from a type of the namespace. -/
theorem baseName?_qualifiedName (namespaceName : String) {name : String} (plain : IsPlain name) :
    baseName? namespaceName (qualifiedName namespaceName name) = some name := by
  have below : belowNamespace (Name.trimSeparators namespaceName).toList
      (qualifiedName namespaceName name).toList = some name.toList := by
    unfold belowNamespace
    rw [toList_qualifiedName]
    by_cases isGlobal : (Name.trimSeparators namespaceName).toList = []
    · rw [if_pos isGlobal, if_pos (List.isEmpty_iff.mpr isGlobal)]
    · have isInside : ¬ (Name.trimSeparators namespaceName).toList.isEmpty = true :=
        fun isEmpty => isGlobal (List.isEmpty_iff.mp isEmpty)
      rw [if_neg isGlobal, if_neg isInside, dropFolded_append]
      rfl
  have isNonempty : (!name.isEmpty) = true := by
    rw [Bool.not_eq_true', Bool.eq_false_iff]
    intro isEmpty
    rw [String.isEmpty_iff, ← String.toList_inj] at isEmpty
    exact plain.isNonempty isEmpty
  unfold baseName?
  dsimp only
  rw [trimLeading_qualifiedName plain, below, Option.map_some, String.ofList_toList,
    stripSeparators_of_plain plain, Option.filter_some, if_pos isNonempty]

/-- Types of one namespace are equal ignoring case only if their names are. -/
theorem typeKey_qualifiedName {namespaceName left right : String} (leftPlain : IsPlain left)
    (rightPlain : IsPlain right)
    (same : Autoloader.typeKey (qualifiedName namespaceName left) =
      Autoloader.typeKey (qualifiedName namespaceName right)) :
    Text.fold left = Text.fold right := by
  unfold Autoloader.typeKey at same
  rw [trimLeading_qualifiedName leftPlain, trimLeading_qualifiedName rightPlain] at same
  have sameCharacters := congrArg String.toList same
  rw [Text.toList_fold, Text.toList_fold, toList_qualifiedName, toList_qualifiedName]
    at sameCharacters
  apply String.toList_injective
  rw [Text.toList_fold, Text.toList_fold]
  split at sameCharacters
  · exact sameCharacters
  · rw [List.map_append, List.map_append] at sameCharacters
    exact (List.cons.inj (List.append_cancel_left sameCharacters)).2

end FactoryProxy.Artifact
