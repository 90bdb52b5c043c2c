import FactoryProxy.Proofs.Artifact.Naming
import FactoryProxy.Proofs.Name.Spelling
import FactoryProxy.Proofs.Text.Bytes

/-!
Contract: which types live in a namespace.

A type is told to live in a namespace by cutting its name behind as many bytes as the
namespace takes. Where no character ends at that place the type is declined before
anything is cut, and otherwise the name is cut there a second time.

Owns: the decision by bytes, its agreement with the one by characters, the exact condition
for a base name, and the base names of generated types in any case of the namespace.
-/

namespace FactoryProxy

namespace Name

/-- Without its leading separators a name starts with none. -/
theorem starts_trimLeading (name : String) {first : Char}
    (isFirst : (trimLeading name).toList.head? = some first) : isSeparator first = false := by
  have dropped := List.head?_dropWhile_not isSeparator name.toList
  rw [trimLeading, Text.trimStart, String.toList_ofList] at isFirst
  rw [isFirst] at dropped
  simpa using dropped

end Name

namespace Artifact

/-! ## The decision by bytes -/

/-- What follows a separator at the start of a text. -/
def behindSeparator? (text : List Char) : Option (List Char) :=
  match text with
  | first :: rest => if Name.isSeparator first then some rest else none
  | [] => none

/-- What stands below the namespace in a type name, cut behind the bytes of the namespace.
There is no result at all if the second cut cannot be made. -/
def belowByBytes (namespaceName typeName : String) : Option (Option (List Char)) :=
  if namespaceName.isEmpty then some (some typeName.toList)
  else
    match Text.cutAtByte? namespaceName.utf8ByteSize typeName with
    | none => some none
    | some tried =>
      if Text.sameFolded tried.1 namespaceName then
        (Text.cutAtByte? namespaceName.utf8ByteSize typeName).map
          (fun parts => behindSeparator? parts.2.toList)
      else some none

/-- The base name for a requested type, by cuts behind bytes. -/
def baseNameByBytes (namespaceName typeName : String) : Option (Option String) :=
  (belowByBytes (Name.trimSeparators namespaceName) (Name.trimLeading typeName)).map
    (fun below => (below.map (fun rest => Name.stripSeparators (String.ofList rest))).filter
      (fun base => !base.isEmpty))

theorem dropFolded_eq_some_iff {namespaceName typeName rest : List Char} :
    dropFolded namespaceName typeName = some rest ↔
      ∃ head, typeName = head ++ rest ∧
        head.map Char.toLower = namespaceName.map Char.toLower := by
  induction namespaceName generalizing typeName with
  | nil => simp [dropFolded, eq_comm]
  | cons expected more inductionHypothesis =>
      cases typeName with
      | nil => simp [dropFolded]
      | cons actual others =>
          rw [dropFolded]
          by_cases same : expected.toLower = actual.toLower
          · rw [if_pos same, inductionHypothesis]
            constructor
            · rintro ⟨head, rfl, folded⟩
              exact ⟨actual :: head, rfl, by simp [same, folded]⟩
            · rintro ⟨head, isType, folded⟩
              cases head with
              | nil => simp at folded
              | cons first remaining =>
                  simp only [List.cons_append, List.cons.injEq, List.map_cons] at isType folded
                  exact ⟨remaining, isType.2, folded.2⟩
          · rw [if_neg same]
            simp only [reduceCtorEq, false_iff, not_exists, not_and]
            intro head isType folded
            cases head with
            | nil => simp at folded
            | cons first remaining =>
                simp only [List.cons_append, List.cons.injEq, List.map_cons] at isType folded
                exact same (by rw [isType.1, folded.1])

/-- A namespace is found by its characters exactly if the cut behind its bytes finds it. -/
theorem dropFolded_eq_cut (namespaceName typeName : String) :
    dropFolded namespaceName.toList typeName.toList =
      ((Text.cutAtByte? namespaceName.utf8ByteSize typeName).filter
        (fun parts => Text.sameFolded parts.1 namespaceName)).map (fun parts => parts.2.toList) := by
  apply Option.ext
  intro rest
  simp only [dropFolded_eq_some_iff, Option.map_eq_some_iff, Option.filter_eq_some_iff]
  constructor
  · rintro ⟨head, isType, folded⟩
    have same : Text.sameFolded (String.ofList head) namespaceName = true :=
      Text.sameFolded_iff.mpr (by simpa using folded)
    have isCut : Text.cutAtByte? namespaceName.utf8ByteSize typeName =
        some (String.ofList head, String.ofList rest) :=
      Text.cutAtByte?_eq_some_iff.mpr
        ⟨String.toList_injective (by simpa using isType),
          Text.utf8ByteSize_eq_of_sameFolded same⟩
    exact ⟨_, ⟨isCut, same⟩, String.toList_ofList⟩
  · rintro ⟨⟨head, behind⟩, ⟨isCut, same⟩, rfl⟩
    obtain ⟨rfl, _⟩ := Text.cutAtByte?_eq_some_iff.mp isCut
    exact ⟨head.toList, by simp, Text.sameFolded_iff.mp same⟩

/-- No cut falls inside a character, and the decision is the one by characters. -/
theorem belowByBytes_eq (namespaceName typeName : String) :
    belowByBytes namespaceName typeName =
      some (belowNamespace namespaceName.toList typeName.toList) := by
  have isNil : namespaceName.toList.isEmpty = namespaceName.isEmpty := by
    rw [Bool.eq_iff_iff, List.isEmpty_iff, String.isEmpty_iff, ← String.toList_inj]
    rfl
  unfold belowByBytes belowNamespace
  rw [isNil, dropFolded_eq_cut]
  split
  · rfl
  · cases isCut : Text.cutAtByte? namespaceName.utf8ByteSize typeName with
    | none => rfl
    | some parts =>
        dsimp only
        rw [Option.filter_some]
        by_cases same : Text.sameFolded parts.1 namespaceName = true
        · rw [if_pos same, if_pos same, Option.map_some, Option.map_some]
          cases parts.2.toList with
          | nil => rfl
          | cons first rest => rfl
        · rw [if_neg same, if_neg same]
          rfl

/-! ## The exact condition -/

/-- The type is the namespace in some ASCII case, a separator and the rest; in the global
namespace the rest is the whole type. -/
def LivesIn (namespaceName typeName rest : String) : Prop :=
  namespaceName = "" ∧ typeName = rest ∨
    ∃ head, Text.sameFolded head namespaceName = true ∧ typeName = Name.join head rest

theorem belowNamespace_eq_some_iff {namespaceName typeName rest : String}
    (starts : ∀ first, typeName.toList.head? = some first → Name.isSeparator first = false) :
    belowNamespace namespaceName.toList typeName.toList = some rest.toList ↔
      LivesIn namespaceName typeName rest := by
  unfold belowNamespace LivesIn
  by_cases isGlobal : namespaceName = ""
  · subst isGlobal
    simp only [true_and]
    constructor
    · intro isRest
      exact .inl (String.toList_injective (Option.some.inj isRest))
    · rintro (rfl | ⟨head, same, rfl⟩)
      · rfl
      · have noHead : head.toList = [] := by
          simpa using Text.sameFolded_iff.mp same
        have separates := starts Name.separator (by rw [Name.toList_join, noHead]; rfl)
        cases separates
  · have isNamed : ¬ namespaceName.toList.isEmpty = true := by
      rw [List.isEmpty_iff, ← String.toList_empty, String.toList_inj]
      exact isGlobal
    rw [if_neg isNamed]
    simp only [isGlobal, false_and, false_or]
    constructor
    · intro isRest
      split at isRest
      · rename_i first behind dropped
        split at isRest
        · rename_i separates
          obtain ⟨head, isType, folded⟩ := dropFolded_eq_some_iff.mp dropped
          refine ⟨String.ofList head, Text.sameFolded_iff.mpr (by simpa using folded), ?_⟩
          apply String.toList_injective
          rw [Name.toList_join, String.toList_ofList, isType, Option.some.inj isRest,
            beq_iff_eq.mp separates]
        · cases isRest
      · cases isRest
    · rintro ⟨head, same, rfl⟩
      have dropped := dropFolded_eq_some_iff.mpr
        ⟨head.toList, Name.toList_join head rest, Text.sameFolded_iff.mp same⟩
      rw [dropped]
      rfl

/-! ## Base names -/

theorem baseName?_eq_some_iff {namespaceName typeName base : String} :
    baseName? namespaceName typeName = some base ↔
      ∃ rest, LivesIn (Name.trimSeparators namespaceName) (Name.trimLeading typeName) rest ∧
        base = Name.stripSeparators rest ∧ base ≠ "" := by
  have lives : ∀ rest : String,
      belowNamespace (Name.trimSeparators namespaceName).toList
          (Name.trimLeading typeName).toList = some rest.toList ↔
        LivesIn (Name.trimSeparators namespaceName) (Name.trimLeading typeName) rest :=
    fun rest => belowNamespace_eq_some_iff (fun _ => Name.starts_trimLeading typeName)
  simp only [baseName?, Option.filter_eq_some_iff, Option.map_eq_some_iff, Bool.not_eq_true',
    Bool.eq_false_iff, Ne, String.isEmpty_iff]
  constructor
  · rintro ⟨⟨characters, below, rfl⟩, isNonempty⟩
    refine ⟨String.ofList characters, (lives _).mp ?_, rfl, isNonempty⟩
    rw [below, String.toList_ofList]
  · rintro ⟨rest, isBelow, rfl, isNonempty⟩
    exact ⟨⟨rest.toList, (lives rest).mpr isBelow, by rw [String.ofList_toList]⟩, isNonempty⟩

/-- `count` separators and the text behind them. -/
def behindSeparators (count : Nat) (text : String) : String :=
  String.ofList (List.replicate count Name.separator) ++ text

theorem trimLeading_behindSeparators (count : Nat) (text : String) :
    Name.trimLeading (behindSeparators count text) = Name.trimLeading text := by
  unfold Name.trimLeading Text.trimStart behindSeparators
  rw [String.toList_append, String.toList_ofList, List.dropWhile_append_of_pos]
  intro c member
  rw [List.eq_of_mem_replicate member]
  rfl

/-- A plain name in the namespace is found behind any number of separators and under any
spelling of the namespace. -/
theorem baseName?_respelled {namespaceName spelled name : String} (plain : IsPlain name)
    (same : Text.sameFolded spelled namespaceName = true) (count : Nat) :
    baseName? namespaceName (behindSeparators count (qualifiedName spelled name)) = some name := by
  have sameTrimmed :
      Text.sameFolded (Name.trimSeparators spelled) (Name.trimSeparators namespaceName) = true := by
    rw [Text.sameFolded, Name.fold_trimSeparators, Name.fold_trimSeparators, beq_iff_eq.mp same,
      beq_self_eq_true]
  refine baseName?_eq_some_iff.mpr ⟨name, ?_, (stripSeparators_of_plain plain).symm, ?_⟩
  · rw [trimLeading_behindSeparators, trimLeading_qualifiedName plain]
    by_cases isGlobal : (Name.trimSeparators spelled).toList = []
    · left
      constructor
      · rw [Text.sameFolded_iff, isGlobal] at sameTrimmed
        exact String.toList_injective (List.map_eq_nil_iff.mp sameTrimmed.symm)
      · apply String.toList_injective
        rw [toList_qualifiedName, if_pos isGlobal]
    · right
      refine ⟨Name.trimSeparators spelled, sameTrimmed, ?_⟩
      apply String.toList_injective
      rw [toList_qualifiedName, if_neg isGlobal, Name.toList_join]
  · intro isEmpty
    exact plain.isNonempty (by rw [isEmpty]; rfl)

/-- The cuts by which a base name is found never fall inside a character. There is one
exactly if the type lives in the namespace and something is left of the rest without
separators; and the name of a factory is found behind any number of separators and under
any case of the namespace. -/
theorem base_name_decided_exactly (namespaceName typeName : String) :
    baseNameByBytes namespaceName typeName = some (baseName? namespaceName typeName) ∧
      (∀ base, baseName? namespaceName typeName = some base ↔
        ∃ rest, LivesIn (Name.trimSeparators namespaceName) (Name.trimLeading typeName) rest ∧
          base = Name.stripSeparators rest ∧ base ≠ "") ∧
      ∀ className spelled count, Text.sameFolded spelled namespaceName = true →
        baseName? namespaceName
            (behindSeparators count (qualifiedName spelled (factoryName className))) =
          some (factoryName className) := by
  refine ⟨?_, fun base => baseName?_eq_some_iff, ?_⟩
  · unfold baseNameByBytes
    rw [belowByBytes_eq]
    rfl
  · intro className spelled count same
    exact baseName?_respelled (isPlain_factoryName className) same count

/-- A namespace with a letter of two bytes, in another case and behind two separators. -/
theorem factory_found_in_other_case :
    Text.sameFolded "\\gëN\\" "\\Gën\\" = true ∧
      baseName? "\\Gën\\" (behindSeparators 2 (qualifiedName "\\gëN\\" (factoryName "\\A\\B"))) =
        some (factoryName "\\A\\B") := by
  have same : Text.sameFolded "\\gëN\\" "\\Gën\\" = true := by decide +kernel
  exact ⟨same, (base_name_decided_exactly "\\Gën\\" "").2.2 "\\A\\B" "\\gëN\\" 2 same⟩

end Artifact

end FactoryProxy
