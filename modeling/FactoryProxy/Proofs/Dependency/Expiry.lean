import FactoryProxy.Proofs.Dependency.Recording
import FactoryProxy.Proofs.FileSystem.Writing

/-!
Contract: what a dependency set that is not expired says about the files.

Owns: what stays of a set that is merged into an empty one, the paths and digests behind a
test for expiry, and scans that denote the same paths.
-/

namespace FactoryProxy.DependencySet

open Sequencing

variable {files : FileSystem} {set : DependencySet}

/-! ## Merging -/

/-- Recorded artifacts change nothing but the list of artifacts. -/
theorem foldl_addArtifact (paths : List Path) (set : DependencySet) :
    ∃ artifacts, paths.foldl addArtifact set = { set with artifacts := artifacts } ∧
      ∀ path ∈ artifacts, path ∈ set.artifacts ∨ path ∈ paths := by
  induction paths generalizing set with
  | nil => exact ⟨set.artifacts, rfl, fun path member => .inl member⟩
  | cons head tail inductionHypothesis =>
      rw [List.foldl_cons]
      unfold addArtifact
      split
      · obtain ⟨artifacts, added, origin⟩ := inductionHypothesis set
        exact ⟨artifacts, added, fun path member =>
          (origin path member).imp id (List.mem_cons_of_mem head)⟩
      · obtain ⟨artifacts, added, origin⟩ :=
          inductionHypothesis { set with artifacts := set.artifacts ++ [head] }
        refine ⟨artifacts, added, fun path member => ?_⟩
        rcases origin path member with present | inTail
        · rcases List.mem_append.mp present with isOld | isHead
          · exact .inl isOld
          · rw [List.mem_singleton.mp isHead]
            exact .inr List.mem_cons_self
        · exact .inr (List.mem_cons_of_mem head inTail)

/-- Merged into an empty set, a set keeps what it has recorded. -/
theorem empty_extend (set : DependencySet) :
    ∃ artifacts, (∅ : DependencySet).extend set = { set with artifacts := artifacts } ∧
      ∀ path ∈ artifacts, path ∈ set.artifacts := by
  have scanned : (if set.scanned.isEmpty then (∅ : DependencySet).scanned else set.scanned) =
      set.scanned := by
    split
    · rename_i nothing
      exact OrderedMap.eq_of_entries (List.isEmpty_iff.mp nothing).symm
    · rfl
  have fingerprint : (if set.fingerprint.isEmpty then (∅ : DependencySet).fingerprint
      else set.fingerprint) = set.fingerprint := by
    split
    · rename_i nothing
      exact (String.isEmpty_iff.mp nothing).symm
    · rfl
  have recorded : (∅ : DependencySet).files.union set.files = set.files :=
    OrderedMap.empty_union set.files
  obtain ⟨artifacts, merged, origin⟩ :=
    foldl_addArtifact set.artifacts { set with artifacts := (∅ : DependencySet).artifacts }
  refine ⟨artifacts, ?_, fun path member => (origin path member).resolve_left List.not_mem_nil⟩
  unfold extend
  dsimp only
  rw [scanned, fingerprint, recorded]
  exact merged

/-! ## Expiry -/

/-- The two paths are spellings of one. -/
def SamePath (left right : Path) : Prop :=
  left.components = right.components

theorem samePaths_iff (left right : List Path) :
    samePaths left right = true ↔ List.Forall₂ SamePath left right := by
  induction left generalizing right with
  | nil =>
      cases right with
      | nil => simp [samePaths]
      | cons head tail => simp [samePaths]
  | cons first rest inductionHypothesis =>
      cases right with
      | nil => simp [samePaths]
      | cons head tail =>
          simp only [samePaths, Bool.and_eq_true, inductionHypothesis, List.forall₂_cons,
            Path.same, beq_iff_eq, SamePath]

theorem all_isUnchanged_iff (entries : List (Path × String)) :
    entries.all (isUnchanged files) = true ↔ AreCurrent files entries := by
  have one : ∀ entry : Path × String,
      isUnchanged files entry = true ↔ digestOf files entry.1 = .ok entry.2 := by
    intro entry
    unfold isUnchanged
    cases digestOf files entry.1 with
    | ok digest => simp
    | error failure => simp
  simp only [List.all_eq_true, one, AreCurrent]

/-- A set is not expired exactly if a scan finds the recorded paths, the artifacts are
files, and all recorded digests are current. -/
theorem isExpired_eq_false_iff {scan : List Path} :
    set.isExpired files scan = false ↔
      List.Forall₂ SamePath (OrderedSet.ofList scan).toList set.scanned.keys ∧
      (∀ path ∈ set.artifacts, files.isFile path = true) ∧
      AreCurrent files set.scanned.entries ∧ AreCurrent files set.files.entries := by
  simp only [isExpired, Bool.or_eq_false_iff, Bool.not_eq_false', samePaths_iff,
    List.all_eq_true (p := files.isFile), all_isUnchanged_iff, and_assoc]

/-! ## Scans that denote the same paths -/

section Denoting

variable {lefts rights scan keys : List Path}

/-- The lists denote the same set of paths. Order, repetitions and spellings do not count. -/
def DenoteAlike (lefts rights : List Path) : Prop :=
  SameElements (lefts.map Path.components) (rights.map Path.components)

instance (lefts rights : List Path) : Decidable (DenoteAlike lefts rights) :=
  inferInstanceAs (Decidable (SameElements _ _))

theorem DenoteAlike.symm (alike : DenoteAlike lefts rights) : DenoteAlike rights lefts :=
  SameElements.symm alike

theorem DenoteAlike.trans {others : List Path} (first : DenoteAlike lefts rights)
    (second : DenoteAlike rights others) : DenoteAlike lefts others :=
  fun components => (first components).trans (second components)

theorem covers_iff : OrderedSet.Covers rights lefts ↔
    ∀ components ∈ lefts.map Path.components, components ∈ rights.map Path.components := by
  unfold OrderedSet.Covers
  simp only [Path.compare_eq_iff, List.mem_map, forall_exists_index, and_imp,
    forall_apply_eq_imp_iff₂]
  refine forall₂_congr (fun left _ => exists_congr (fun right => and_congr_right' ?_))
  exact eq_comm

theorem denoteAlike_iff_covers : DenoteAlike lefts rights ↔
    OrderedSet.Covers rights lefts ∧ OrderedSet.Covers lefts rights := by
  rw [covers_iff, covers_iff]
  exact ⟨fun alike => ⟨fun components => (alike components).mp,
      fun components => (alike components).mpr⟩,
    fun both components => ⟨both.1 components, both.2 components⟩⟩

/-- Sorting without repetitions keeps the paths that a list denotes. -/
theorem denoteAlike_toList_ofList (scan : List Path) :
    DenoteAlike scan (OrderedSet.ofList scan).toList := by
  refine denoteAlike_iff_covers.mpr ⟨OrderedSet.covers_ofList scan, fun path member => ?_⟩
  exact ⟨path, OrderedSet.mem_of_mem_toList_ofList member, Std.ReflCmp.compare_self⟩

theorem denoteAlike_of_forall₂ (related : List.Forall₂ SamePath lefts rights) :
    DenoteAlike lefts rights := by
  have sameComponents : lefts.map Path.components = rights.map Path.components :=
    List.forall₂_eq_eq_eq ▸ List.forall₂_map_left_iff.mpr (List.forall₂_map_right_iff.mpr related)
  intro components
  rw [sameComponents]

/-- A sorted scan spells increasing paths one by one exactly if it denotes them. -/
theorem forall₂_samePath_iff
    (increasing : keys.Pairwise (fun left right => compare left right = .lt)) :
    List.Forall₂ SamePath (OrderedSet.ofList scan).toList keys ↔ DenoteAlike scan keys := by
  have sorted := denoteAlike_toList_ofList scan
  constructor
  · intro related
    exact sorted.trans (denoteAlike_of_forall₂ related)
  · intro alike
    obtain ⟨inKeys, inScan⟩ := denoteAlike_iff_covers.mp (sorted.symm.trans alike)
    refine (OrderedSet.forall₂_of_covers (OrderedSet.increasing_toList _) increasing inKeys
      inScan).imp ?_
    intro left right same
    exact Path.compare_eq_iff.mp same

/-- A set is not expired exactly if the scan denotes the recorded paths, every artifact is
a regular file, and every recorded file can be read and has the recorded digest. Scans that
denote the same paths get the same answer. -/
theorem expiry_decided_by_paths_and_digests (set : DependencySet) (files : FileSystem)
    (scan : List Path) :
    (set.isExpired files scan = false ↔
      DenoteAlike scan set.scanned.keys ∧
      (∀ path ∈ set.artifacts, ∃ key content, files.entryAt path = .ok (key, .file content)) ∧
      ∀ entry ∈ set.scanned.entries ++ set.files.entries,
        ∃ content, files.read entry.1 = .ok content ∧ Digest.ofBytes content = entry.2) ∧
    ∀ other, DenoteAlike other scan → set.isExpired files other = set.isExpired files scan := by
  have increasing : set.scanned.keys.Pairwise (fun left right => compare left right = .lt) :=
    List.pairwise_map.mpr set.scanned.increasing
  have isExpired_iff : ∀ paths, set.isExpired files paths = false ↔
      DenoteAlike paths set.scanned.keys ∧ (∀ path ∈ set.artifacts, files.isFile path = true) ∧
        AreCurrent files (set.scanned.entries ++ set.files.entries) := by
    intro paths
    rw [isExpired_eq_false_iff, forall₂_samePath_iff increasing]
    simp only [AreCurrent, List.forall_mem_append]
  constructor
  · rw [isExpired_iff]
    simp only [FileSystem.isFile_iff, FileSystem.read_eq_ok_iff, AreCurrent, digestOf, map_eq_ok]
    simp only [exists_comm (α := FileKey)]
  · intro other alike
    have sameAnswer : set.isExpired files other = false ↔ set.isExpired files scan = false := by
      rw [isExpired_iff, isExpired_iff]
      exact and_congr_left' ⟨alike.symm.trans, alike.trans⟩
    refine Bool.eq_iff_iff.mpr (not_iff_not.mp ?_)
    rw [Bool.not_eq_true, Bool.not_eq_true]
    exact sameAnswer

example : DenoteAlike [⟨"b"⟩, ⟨"a//b/."⟩, ⟨"b/"⟩] [⟨"a/b"⟩, ⟨"b"⟩] := by decide +kernel

end Denoting

end FactoryProxy.DependencySet
