import FactoryProxy.Proofs.FileSystem.Writing
import FactoryProxy.Proofs.Text.Pieces

/-!
Contract: paths with the same components lead to the same entry.

The components of a path are its segments without the silent ones, and say whether it
starts at the root. A path may fail where another spelling of it does not, since the
length of its text is bounded; two spellings that both lead to an entry lead to one.

Owns: the segments behind components, and the entry at another spelling of a path.
-/

namespace FactoryProxy

namespace Path

namespace Component

/-- The component is a segment and no start. -/
def isSegment : Component → Bool
  | root => false
  | current => false
  | parent => true
  | normal _ => true

end Component

open Component

theorem isSegment_of_componentOf {segment : List Char} {component : Component}
    (counts : componentOf segment = some component) : component.isSegment = true := by
  unfold componentOf at counts
  split at counts
  · cases counts
  · split at counts
    · cases counts
      rfl
    · cases counts
      rfl

theorem isSegment_of_mem {segments : List (List Char)} {component : Component}
    (member : component ∈ segments.filterMap componentOf) : component.isSegment = true := by
  obtain ⟨segment, _, counts⟩ := List.mem_filterMap.mp member
  exact isSegment_of_componentOf counts

/-- The segments that count are the components without the start. -/
theorem filter_components (path : Path) :
    path.components.filter isSegment =
      (Text.pieces isSlash path.text.toList).filterMap componentOf := by
  have allCount : ((Text.pieces isSlash path.text.toList).filterMap componentOf).filter isSegment =
      (Text.pieces isSlash path.text.toList).filterMap componentOf :=
    List.filter_eq_self.mpr (fun component member => isSegment_of_mem member)
  unfold components componentsOf
  dsimp only
  split
  · rename_i isEmpty
    rw [isEmpty]
    rfl
  · rw [List.filter_cons_of_neg (by decide), allCount]
  · split
    · rw [List.filter_cons_of_neg (by decide), allCount]
    · exact allCount

/-- The first component of a path tells whether the path starts at the root. -/
theorem isAbsolute_iff (path : Path) :
    path.isAbsolute = true ↔ path.components.head? = some .root := by
  have notRoot : ∀ segments : List (List Char),
      (segments.filterMap componentOf).head? ≠ some .root := by
    intro segments isRoot
    have := isSegment_of_mem (List.mem_of_head? isRoot)
    cases this
  unfold isAbsolute components
  cases path.text.toList with
  | nil => simp [componentsOf, Text.pieces, componentOf]
  | cons first rest =>
      by_cases slash : isSlash first = true
      · obtain ⟨second, others, isRest⟩ := List.exists_cons_of_ne_nil (Text.pieces_ne_nil isSlash rest)
        simp [componentsOf, Text.pieces, slash, isRest]
      · obtain ⟨start, others, isPieces⟩ :
            ∃ start others, Text.pieces isSlash (first :: rest) = (first :: start) :: others := by
          unfold Text.pieces
          rw [if_neg slash]
          cases Text.pieces isSlash rest with
          | nil => exact ⟨[], [], rfl⟩
          | cons start others => exact ⟨start, others, rfl⟩
        have notHead := notRoot ((first :: start) :: others)
        unfold componentsOf
        rw [isPieces]
        dsimp only
        split
        · simp [slash]
        · exact ⟨fun isSlash => absurd isSlash slash, fun isRoot => absurd isRoot notHead⟩

end Path

namespace FileSystem

/-! ## Segments that count -/

/-- The segment is neither empty nor a single dot. -/
def isLoud (segment : String) : Bool :=
  !(segment == "" || segment == ".")

theorem isLoud_iff {segment : String} :
    isLoud segment = true ↔ ¬ (segment = "" ∨ segment = ".") := by
  simp [isLoud]

theorem quieter_filter (segments : List String) :
    Quieter segments (segments.filter isLoud) := by
  induction segments with
  | nil => exact .nil
  | cons segment rest inductionHypothesis =>
      by_cases loud : isLoud segment = true
      · rw [List.filter_cons_of_pos loud]
        exact .keep segment inductionHypothesis
      · rw [List.filter_cons_of_neg loud]
        exact .drop (Classical.not_not.mp (fun notSilent => loud (isLoud_iff.mpr notSilent)))
          inductionHypothesis

/-- A segment that counts is the text of its component. -/
theorem text_componentOf (segment : List Char) :
    ((Path.componentOf segment).map Path.Component.text).toList =
      [String.ofList segment].filter isLoud := by
  have isText : ∀ text : String, String.ofList segment = text ↔ segment = text.toList :=
    fun text => ⟨fun same => by rw [← same, String.toList_ofList],
      fun same => by rw [same, String.ofList_toList]⟩
  unfold Path.componentOf
  split
  · rename_i isSilent
    have silent : ¬ isLoud (String.ofList segment) = true := by
      rw [isLoud_iff, isText "", isText "."]
      exact not_not_intro isSilent
    rw [List.filter_cons_of_neg silent]
    rfl
  · rename_i notSilent
    have loud : isLoud (String.ofList segment) = true := by
      rw [isLoud_iff, isText "", isText "."]
      exact notSilent
    rw [List.filter_cons_of_pos loud]
    split
    · rename_i isParent
      rw [isParent]
      rfl
    · rfl

/-- The segments of a path that count are the texts of its components. -/
theorem filter_segmentsOf (path : Path) :
    (segmentsOf path.text).filter isLoud =
      (path.components.filter Path.Component.isSegment).map Path.Component.text := by
  rw [Path.filter_components]
  unfold segmentsOf Text.splitBy
  induction Text.pieces Path.isSlash path.text.toList with
  | nil => rfl
  | cons segment rest inductionHypothesis =>
      have head := text_componentOf segment
      rw [List.map_cons, ← List.singleton_append, List.filter_append, inductionHypothesis, ← head,
        List.filterMap_cons]
      cases Path.componentOf segment with
      | none => rfl
      | some component => rfl

/-! ## Another spelling -/

variable {files : FileSystem} {left right : Path}

theorem startOf_of_components (same : left.components = right.components) (here : FileKey) :
    startOf left.text here = startOf right.text here := by
  have together : left.isAbsolute = right.isAbsolute := by
    rw [Bool.eq_iff_iff, Path.isAbsolute_iff, Path.isAbsolute_iff, same]
  unfold startOf
  rw [show (Path.mk left.text).isAbsolute = left.isAbsolute from rfl,
    show (Path.mk right.text).isAbsolute = right.isAbsolute from rfl, together]

/-- Two spellings of a path that lead to entries lead to one entry. -/
theorem entryAt_of_components (same : left.components = right.components)
    {leftKey rightKey : FileKey} {leftEntry rightEntry : FileEntry}
    (isLeft : files.entryAt left = .ok (leftKey, leftEntry))
    (isRight : files.entryAt right = .ok (rightKey, rightEntry)) :
    leftKey = rightKey ∧ leftEntry = rightEntry := by
  have leftLeads := leads_of_quieter (locate_eq_ok_iff.mp (entryAt_eq_ok_iff.mp isLeft)).2
    (quieter_filter (segmentsOf left.text))
  have rightLeads := leads_of_quieter (locate_eq_ok_iff.mp (entryAt_eq_ok_iff.mp isRight)).2
    (quieter_filter (segmentsOf right.text))
  rw [startOf_of_components same, filter_segmentsOf, same, ← filter_segmentsOf] at leftLeads
  have samePlace := (follow_of_leads leftLeads).symm.trans (follow_of_leads rightLeads)
  injection Except.ok.inj samePlace with sameKey sameEntry
  exact ⟨sameKey, sameEntry⟩

theorem sameFile_of_components (same : left.components = right.components)
    (isLeft : files.isFile left = true) (isRight : files.isFile right = true) :
    files.SameFile left right := by
  obtain ⟨leftKey, leftContent, leftThere⟩ := isFile_iff_entryAt.mp isLeft
  obtain ⟨rightKey, rightContent, rightThere⟩ := isFile_iff_entryAt.mp isRight
  obtain ⟨rfl, _⟩ := entryAt_of_components same leftThere rightThere
  exact sameFile_of_key leftThere rightThere

/-- Two spellings of a path that lead to files lead to one content. -/
theorem read_of_components (same : left.components = right.components) {content : ByteArray}
    (isRead : files.read left = .ok content) (isFile : files.isFile right = true) :
    files.read right = .ok content := by
  obtain ⟨leftKey, isLeft⟩ := read_eq_ok_iff.mp isRead
  obtain ⟨other, isOther⟩ := isFile_iff.mp isFile
  obtain ⟨rightKey, isRight⟩ := read_eq_ok_iff.mp isOther
  obtain ⟨rfl, sameContent⟩ := entryAt_of_components same isLeft isRight
  rw [FileEntry.file.inj sameContent]
  exact isOther

end FileSystem

end FactoryProxy
