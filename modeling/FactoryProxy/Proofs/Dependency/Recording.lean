import FactoryProxy.Dependency.Basic
import FactoryProxy.Proofs.OrderedMap.Spelling
import FactoryProxy.Proofs.Sequencing

/-!
Contract: what a dependency set has recorded.

A scan is recorded as a whole. Other files are read and recorded one by one, so one that
cannot be read leaves those before it recorded.

Owns: the entries of recorded scans, the files that a recording adds, the place where it
fails, and recordings that do not fail.
-/

namespace FactoryProxy.DependencySet

open Sequencing

variable {files : FileSystem} {set middle left : DependencySet} {path : Path}
  {paths further : List Path} {cause : IoFailure}

/-! ## Scanned files -/

/-- The entry of a file that was recorded under its path. -/
def IsRecord (files : FileSystem) (path : Path) (entry : Path × String) : Prop :=
  entry.1 = path ∧ digestOf files path = .ok entry.2

theorem paths_of_records {paths : List Path} {entries : List (Path × String)}
    (records : List.Forall₂ (IsRecord files) paths entries) : entries.map Prod.fst = paths := by
  induction records with
  | nil => rfl
  | cons isRecord _ inductionHypothesis =>
      rw [List.map_cons, isRecord.1, inductionHypothesis]

/-- Every entry has the digest of its file. -/
def AreCurrent (files : FileSystem) (entries : List (Path × String)) : Prop :=
  ∀ entry ∈ entries, digestOf files entry.1 = .ok entry.2

theorem current_of_records {paths : List Path} {entries : List (Path × String)}
    (records : List.Forall₂ (IsRecord files) paths entries) : AreCurrent files entries := by
  intro entry member
  obtain ⟨path, _, rfl, isDigest⟩ := exists_left records member
  exact isDigest

/-- A scan in path order is recorded path by path, and nothing else is changed. -/
theorem records_of_setScanned {recorded : DependencySet} {paths : List Path}
    (increasing : paths.Pairwise (fun left right => compare left right = .lt))
    (isRecorded : set.setScanned files paths = .ok recorded) :
    ∃ scanned, recorded = { set with scanned := scanned } ∧
      List.Forall₂ (IsRecord files) paths scanned.entries := by
  unfold setScanned at isRecorded
  obtain ⟨entries, visited, rfl⟩ := map_eq_ok.mp isRecorded
  have records : List.Forall₂ (IsRecord files) paths entries := by
    refine (mapM_eq_ok.mp visited).imp (fun path entry isVisited => ?_)
    obtain ⟨digest, isDigest, rfl⟩ := map_eq_ok.mp isVisited
    exact ⟨rfl, isDigest⟩
  have increasingEntries : OrderedMap.Increasing entries := by
    rw [← paths_of_records records] at increasing
    exact List.pairwise_map.mp increasing
  refine ⟨OrderedMap.ofListLast entries, rfl, ?_⟩
  rw [OrderedMap.entries_ofListLast increasingEntries]
  exact records

theorem setScanned_isOk (digested : ∀ path ∈ paths, ∃ digest, digestOf files path = .ok digest)
    (set : DependencySet) : ∃ recorded, set.setScanned files paths = .ok recorded := by
  have succeeds : ∀ path ∈ paths, ∃ entry : Path × String,
      (digestOf files path).map (fun digest => (path, digest)) = .ok entry := by
    intro path member
    obtain ⟨digest, isDigest⟩ := digested path member
    exact ⟨(path, digest), map_eq_ok.mpr ⟨digest, isDigest, rfl⟩⟩
  obtain ⟨entries, visited⟩ := mapM_isOk succeeds
  exact ⟨_, map_eq_ok.mpr ⟨entries, visited, rfl⟩⟩

/-! ## Added files -/

/-- The left set has the files recorded besides what the first one had. A file that was
recorded keeps its entry, any other one is recorded with its digest. -/
structure Adds (files : FileSystem) (paths : List Path) (set left : DependencySet) : Prop where
  nothingElse : left = { set with files := left.files }
  keeps : ∀ key entry, set.files.entry? key = some entry → left.files.entry? key = some entry
  records : ∀ path ∈ paths, left.files.contains path = true
  origin : ∀ entry ∈ left.files.entries,
    entry ∈ set.files.entries ∨ ∃ path ∈ paths, IsRecord files path entry

theorem Adds.refl (files : FileSystem) (set : DependencySet) : Adds files [] set set where
  nothingElse := rfl
  keeps := fun _ _ isRecorded => isRecorded
  records := List.forall_mem_nil _
  origin := fun _ member => .inl member

theorem Adds.artifacts (adds : Adds files paths set left) : left.artifacts = set.artifacts := by
  rw [adds.nothingElse]

/-- Added to entries that are current, a file leaves all entries current. -/
theorem Adds.current (adds : Adds files paths set left)
    (current : AreCurrent files set.files.entries) : AreCurrent files left.files.entries := by
  intro entry member
  rcases adds.origin entry member with isOld | ⟨path, _, rfl, isDigest⟩
  · exact current entry isOld
  · exact isDigest

theorem contains_of_keeps
    (keeps : ∀ key entry, set.files.entry? key = some entry → left.files.entry? key = some entry)
    (present : set.files.contains path = true) : left.files.contains path = true := by
  obtain ⟨entry, isRecorded⟩ := Option.isSome_iff_exists.mp present
  exact Option.isSome_iff_exists.mpr ⟨entry, keeps path entry isRecorded⟩

theorem Adds.trans (first : Adds files paths set middle) (second : Adds files further middle left) :
    Adds files (paths ++ further) set left where
  nothingElse := by
    rw [second.nothingElse, first.nothingElse]
  keeps := fun key entry isRecorded => second.keeps key entry (first.keeps key entry isRecorded)
  records := by
    intro path member
    rcases List.mem_append.mp member with isFirst | isFurther
    · exact contains_of_keeps second.keeps (first.records path isFirst)
    · exact second.records path isFurther
  origin := by
    intro entry member
    rcases second.origin entry member with isMiddle | ⟨path, isFurther, isRecord⟩
    · refine (first.origin entry isMiddle).imp_right ?_
      rintro ⟨path, isFirst, isRecord⟩
      exact ⟨path, List.mem_append_left further isFirst, isRecord⟩
    · exact .inr ⟨path, List.mem_append_right paths isFurther, isRecord⟩

theorem adds_of_addFile (added : set.addFile files path = .ok left) :
    Adds files [path] set left := by
  unfold addFile at added
  split at added
  · rename_i present
    cases added
    exact ⟨rfl, fun _ _ isRecorded => isRecorded, List.forall_mem_singleton.mpr present,
      fun _ member => .inl member⟩
  · obtain ⟨digest, isDigest, rfl⟩ := map_eq_ok.mp added
    refine ⟨rfl, ?_, ?_, ?_⟩
    · intro key entry isRecorded
      rw [OrderedMap.entry?_insertNew, isRecorded, Option.some_or]
    · refine List.forall_mem_singleton.mpr ?_
      unfold OrderedMap.contains
      rw [OrderedMap.entry?_insertNew, Option.isSome_or,
        show compare path path = .eq from Std.ReflCmp.compare_self]
      exact Bool.or_true _
    · intro entry member
      rcases OrderedMap.mem_insertNew member with rfl | isOld
      · exact .inr ⟨path, List.mem_singleton_self path, rfl, isDigest⟩
      · exact .inl isOld

theorem addFiles_cons_of_ok (added : set.addFile files path = .ok middle) (paths : List Path) :
    set.addFiles files (path :: paths) = middle.addFiles files paths := by
  rw [addFiles, added]

theorem addFiles_cons_of_error (fails : set.addFile files path = .error cause)
    (paths : List Path) : set.addFiles files (path :: paths) = (set, .error cause) := by
  rw [addFiles, fails]

theorem adds_of_addFiles (added : set.addFiles files paths = (left, .ok ())) :
    Adds files paths set left := by
  induction paths generalizing set with
  | nil =>
      cases added
      exact .refl files _
  | cons path paths inductionHypothesis =>
      cases addsFirst : set.addFile files path with
      | ok next =>
          rw [addFiles_cons_of_ok addsFirst] at added
          exact (adds_of_addFile addsFirst).trans (inductionHypothesis added)
      | error failure =>
          rw [addFiles_cons_of_error addsFirst] at added
          cases added

/-- Files that are all recorded are not read, and the set stays as it is. -/
theorem addFiles_of_recorded (recorded : ∀ path ∈ paths, set.files.contains path = true) :
    set.addFiles files paths = (set, .ok ()) := by
  induction paths with
  | nil => rfl
  | cons path paths inductionHypothesis =>
      obtain ⟨present, othersPresent⟩ := List.forall_mem_cons.mp recorded
      have unchanged : set.addFile files path = .ok set := if_pos present
      rw [addFiles_cons_of_ok unchanged]
      exact inductionHypothesis othersPresent

/-- A set stays as it was exactly if all the files had been recorded before. -/
theorem eq_iff_recorded (added : set.addFiles files paths = (left, .ok ())) :
    left = set ↔ ∀ path ∈ paths, set.files.contains path = true := by
  constructor
  · rintro rfl
    exact (adds_of_addFiles added).records
  · intro recorded
    rw [addFiles_of_recorded recorded] at added
    exact (Prod.mk.inj added).1.symm

/-! ## Failed recordings -/

theorem addFile_eq_error_iff : set.addFile files path = .error cause ↔
    set.files.contains path = false ∧ digestOf files path = .error cause := by
  unfold addFile
  by_cases present : set.files.contains path = true
  · simp [present]
  · rw [if_neg present, map_eq_error, Bool.not_eq_true] at *
    exact ⟨fun fails => ⟨present, fails⟩, And.right⟩

/-- A recording fails at the first new file that cannot be read, behind one that completes. -/
theorem addFiles_eq_error_iff : set.addFiles files paths = (left, .error cause) ↔
    ∃ before path behind, paths = before ++ path :: behind ∧
      set.addFiles files before = (left, .ok ()) ∧
      left.files.contains path = false ∧ digestOf files path = .error cause := by
  induction paths generalizing set with
  | nil => simp [addFiles]
  | cons head tail inductionHypothesis =>
      cases addsHead : set.addFile files head with
      | ok next =>
          rw [addFiles_cons_of_ok addsHead, inductionHypothesis]
          constructor
          · rintro ⟨before, path, behind, rfl, completes, isNew, isUnread⟩
            refine ⟨head :: before, path, behind, rfl, ?_, isNew, isUnread⟩
            rw [addFiles_cons_of_ok addsHead, completes]
          · rintro ⟨before, path, behind, split, completes, isNew, isUnread⟩
            cases before with
            | nil =>
                -- The head was recorded, so it is not the file that fails.
                cases completes
                obtain ⟨rfl, rfl⟩ := List.cons.inj split
                rw [addFile_eq_error_iff.mpr ⟨isNew, isUnread⟩] at addsHead
                cases addsHead
            | cons first before =>
                obtain ⟨rfl, rfl⟩ := List.cons.inj split
                rw [addFiles_cons_of_ok addsHead] at completes
                exact ⟨before, path, behind, rfl, completes, isNew, isUnread⟩
      | error failure =>
          rw [addFiles_cons_of_error addsHead]
          constructor
          · intro fails
            cases fails
            exact ⟨[], head, tail, rfl, rfl, addFile_eq_error_iff.mp addsHead⟩
          · rintro ⟨before, path, behind, split, completes, isNew, isUnread⟩
            cases before with
            | nil =>
                cases completes
                obtain ⟨rfl, rfl⟩ := List.cons.inj split
                rw [addFile_eq_error_iff.mpr ⟨isNew, isUnread⟩] at addsHead
                rw [Except.error.inj addsHead]
            | cons first before =>
                obtain ⟨rfl, rfl⟩ := List.cons.inj split
                rw [addFiles_cons_of_error addsHead] at completes
                cases completes

/-- Files with digests are recorded without a failure. -/
theorem addFiles_isOk (digested : ∀ path ∈ paths, ∃ digest, digestOf files path = .ok digest)
    (set : DependencySet) : (set.addFiles files paths).2 = .ok () := by
  rcases added : set.addFiles files paths with ⟨left, outcome⟩
  cases outcome with
  | ok _ => rfl
  | error cause =>
      obtain ⟨before, path, behind, rfl, _, _, isUnread⟩ := addFiles_eq_error_iff.mp added
      obtain ⟨digest, isDigest⟩ :=
        digested path (List.mem_append_right before List.mem_cons_self)
      rw [isUnread] at isDigest
      cases isDigest

end FactoryProxy.DependencySet
