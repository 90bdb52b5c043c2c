import FactoryProxy.Proofs.Artifact.Persisting
import FactoryProxy.Proofs.Artifact.Recording
import FactoryProxy.Proofs.ClassIndex.Rescan
import FactoryProxy.Proofs.Generation.Steps

/-!
Contract: what a run records, and when its container is good.

Owns: the digests and paths that a completed run records, the test for a good container
in terms of them, and a container that stays good with its files.
-/

namespace FactoryProxy.Generation

open Sequencing

variable {settings laterSettings : ResolvedSettings} {files opened after later : FileSystem}
  {container : Container} {index : ClassIndex} {artifacts : List Artifact}

/-! ## Records -/

/-- What a run with these settings records: the digests of its settings, of the scanned
files and of those that artifacts depend on, and the paths of artifacts. -/
structure Records (files : FileSystem) (settings : ResolvedSettings) (index : ClassIndex)
    (persisted : List PersistedArtifact) (dependencies : DependencySet) : Prop where
  fingerprint : dependencies.fingerprint = settings.fingerprint
  scanned : List.Forall₂ (DependencySet.IsRecord files) index.files dependencies.scanned.entries
  files : DependencySet.AreCurrent files dependencies.files.entries
  artifacts : ∀ path ∈ dependencies.artifacts, ∃ artifact ∈ persisted, artifact.path = path

/-- What artifacts depend on is recorded with its digests, and then where they are. -/
theorem record_eq_ok {persisted : List PersistedArtifact} {recorded : DependencySet}
    (ran : Artifact.record files artifacts persisted ∅ = (recorded, .ok ())) :
    DependencySet.AreCurrent files recorded.files.entries ∧
      ∀ path ∈ recorded.artifacts, ∃ artifact ∈ persisted, artifact.path = path := by
  unfold Artifact.record at ran
  rcases isAdded : (∅ : DependencySet).addFiles files
      (artifacts.flatMap (fun artifact => artifact.dependencies.toList)) with ⟨set, outcome⟩
  rw [isAdded] at ran
  cases outcome with
  | error cause => cases ran
  | ok =>
      have adds := DependencySet.adds_of_addFiles isAdded
      obtain ⟨paths, added, origin⟩ :=
        DependencySet.foldl_addArtifact (persisted.map PersistedArtifact.path) set
      rw [List.foldl_map] at added
      have isRecorded := (Prod.mk.inj ran).1
      rw [← isRecorded, added]
      refine ⟨adds.current (List.forall_mem_nil _), fun path member => ?_⟩
      rcases origin path member with before | isPersisted
      · rw [show set.artifacts = [] from adds.artifacts] at before
        cases before
      · exact List.mem_map.mp isPersisted

theorem records_of_dependenciesOf {persisted : List PersistedArtifact}
    {dependencies : DependencySet}
    (increasing : index.files.Pairwise (fun left right => compare left right = .lt))
    (recorded : dependenciesOf files settings index artifacts persisted = .ok dependencies) :
    Records files settings index persisted dependencies := by
  unfold dependenciesOf at recorded
  rcases isRecorded : Artifact.record files artifacts persisted ∅ with ⟨set, outcome⟩
  rw [isRecorded] at recorded
  obtain ⟨_, isDone, scanning⟩ := bind_eq_ok.mp recorded
  obtain rfl : outcome = .ok () := isDone
  obtain ⟨scanned, isScanned, finished⟩ := bind_eq_ok.mp scanning
  obtain ⟨scans, rfl, records⟩ :=
    DependencySet.records_of_setScanned increasing (mapError_eq_ok.mp isScanned)
  obtain rfl := Except.ok.inj finished
  obtain ⟨current, artifactsPersisted⟩ := record_eq_ok isRecorded
  exact ⟨rfl, records, current, artifactsPersisted⟩

theorem Writes.recordsAll {written : Written}
    (writes : Writes settings files after written opened artifacts) :
    Records after settings written.index written.persisted written.dependencies :=
  records_of_dependenciesOf
    (SourceFiles.increasing_of_find (ClassIndex.build_eq_ok.mp (plan_eq_ok writes.plans).1).1)
    writes.records

/-- A run persists its artifacts with an empty set, and then records what was scanned. -/
theorem Writes.persistRecorded {written : Written}
    (writes : Writes settings files after written opened artifacts) :
    ∃ recorded scanned,
      Artifact.persistRecorded settings.proxyDirectory artifacts ∅ opened =
        ((recorded, .ok written.persisted), after) ∧
      recorded.setScanned after written.index.files = .ok scanned ∧
      written.dependencies = scanned.setFingerprint settings.fingerprint := by
  have records := writes.records
  unfold dependenciesOf at records
  rcases isRecorded : Artifact.record after artifacts written.persisted ∅ with ⟨set, outcome⟩
  rw [isRecorded] at records
  obtain ⟨_, isDone, scanning⟩ := bind_eq_ok.mp records
  obtain rfl : outcome = .ok () := isDone
  obtain ⟨scanned, isScanned, finished⟩ := bind_eq_ok.mp scanning
  refine ⟨set, scanned, ?_, mapError_eq_ok.mp isScanned, (Except.ok.inj finished).symm⟩
  rw [Artifact.persistRecorded_of_written writes.persists, isRecorded]
  rfl

/-! ## Good containers -/

/-- A container is good if its fingerprint is that of the settings and a scan finds
nothing expired. -/
theorem isFresh_eq_true_iff : isFresh later laterSettings container = .ok true ↔
    container.dependencies.fingerprint = laterSettings.fingerprint ∧
      ∃ scan, SourceFiles.find later laterSettings.sourceDirectories laterSettings.exclude =
          .ok scan ∧
        container.dependencies.isExpired later scan = false := by
  unfold isFresh
  by_cases same : container.dependencies.fingerprint = laterSettings.fingerprint
  · simp only [same, bne_self_eq_false, Bool.false_eq_true, if_false, map_eq_ok,
      Bool.not_eq_true', true_and]
  · have different : (container.dependencies.fingerprint != laterSettings.fingerprint) = true :=
      bne_iff_ne.mpr same
    simp [different, same]

/-- A run leaves a container that is good as long as the files stay and a scan finds
the files that were scanned. -/
theorem isFresh_of_kept {report : Report}
    (ran : generate settings ∅ files = ((container, .ok report), after))
    (isFound : SourceFiles.find later settings.sourceDirectories settings.exclude =
      .ok (plannedSources settings files))
    (kept : ∀ path content, after.read path = .ok content → later.read path = .ok content) :
    isFresh later settings container = .ok true := by
  obtain ⟨written, opened, artifacts, writes, rfl⟩ := generate_empty_eq_ok ran
  have records := writes.recordsAll
  rw [← (planned_eq writes.opens writes.plans).2] at isFound
  have staysCurrent : ∀ entries, DependencySet.AreCurrent after entries →
      DependencySet.AreCurrent later entries := by
    intro entries current entry member
    obtain ⟨content, isRead, isDigest⟩ := map_eq_ok.mp (current entry member)
    exact map_eq_ok.mpr ⟨content, kept entry.1 content isRead, isDigest⟩
  obtain ⟨merged, isMerged, origin⟩ := DependencySet.empty_extend written.dependencies
  refine isFresh_eq_true_iff.mpr ⟨?_, written.index.files, isFound, ?_⟩
  · unfold describedBy
    rw [isMerged]
    exact records.fingerprint
  · unfold describedBy
    rw [isMerged]
    refine DependencySet.isExpired_eq_false_iff.mpr ⟨?_, ?_, ?_, ?_⟩
    · rw [OrderedSet.toList_ofList (SourceFiles.increasing_of_find isFound),
        show written.dependencies.scanned.keys = written.index.files from
          DependencySet.paths_of_records records.scanned]
      exact List.forall₂_same.mpr (fun _ _ => rfl)
    · intro path member
      obtain ⟨persisted, isPersisted, rfl⟩ := records.artifacts path (origin path member)
      rw [Artifact.persisted_eq writes.persists] at isPersisted
      obtain ⟨artifact, isArtifact, rfl⟩ := List.mem_map.mp isPersisted
      obtain ⟨key, writer, _, isThere, _⟩ := Artifact.entryAt_artifact writes.persists isArtifact
      have isRead := FileSystem.read_eq_ok_iff.mpr ⟨key, isThere⟩
      exact FileSystem.isFile_iff.mpr ⟨_, kept _ _ isRead⟩
    · exact staysCurrent _ (DependencySet.current_of_records records.scanned)
    · exact staysCurrent _ records.files

end FactoryProxy.Generation
