import FactoryProxy.Proofs.ClassIndex.Origin
import FactoryProxy.Proofs.FileSystem.Rewriting
import FactoryProxy.Proofs.FileSystem.Scanning
import FactoryProxy.Proofs.Generation.Freshness

/-!
Contract: a run that is made again while its container is good.

A good container belongs to the scan that a new run makes: the same paths in the same
spelling, with the contents that were read. So a new run plans the same artifacts, and
where the files of the former run are still there, it writes them over themselves and
records the same digests.

Owns: the paths that a run writes, the digests that a run records again, and the steps of
a run that is made again.
-/

namespace FactoryProxy

open Sequencing

/-! ## Digests taken again -/

namespace DependencySet

variable {files later : FileSystem} {paths : List Path}

theorem addFiles_congr (same : ∀ path ∈ paths, digestOf later path = digestOf files path)
    (set : DependencySet) : set.addFiles later paths = set.addFiles files paths := by
  induction paths generalizing set with
  | nil => rfl
  | cons path rest inductionHypothesis =>
      obtain ⟨sameHead, sameRest⟩ := List.forall_mem_cons.mp same
      have sameFile : set.addFile later path = set.addFile files path := by
        unfold addFile
        rw [sameHead]
      unfold addFiles
      rw [sameFile]
      split
      · exact inductionHypothesis sameRest _
      · rfl

theorem setScanned_congr (same : ∀ path ∈ paths, digestOf later path = digestOf files path)
    (set : DependencySet) : set.setScanned later paths = set.setScanned files paths := by
  have sameEntries : paths.mapM (fun path =>
        (digestOf later path).map (fun digest => (path, digest))) =
      paths.mapM (fun path => (digestOf files path).map (fun digest => (path, digest))) := by
    apply mapM_congr
    intro path member
    rw [same path member]
  unfold setScanned
  rw [sameEntries]

end DependencySet

/-! ## Writes of artifacts -/

namespace Artifact

open FileSystem (WritesAll)

variable {directory : Path} {artifacts : List Artifact} {files after : FileSystem}
  {persisted : List PersistedArtifact}

/-- What the artifacts write in a directory. -/
def writesIn (directory : Path) (artifacts : List Artifact) : List (Path × ByteArray) :=
  artifacts.map (fun artifact => (pathIn directory artifact.name, artifact.source.toUTF8))

theorem persist_of_write (artifact : Artifact)
    (wrote : FileSystem.write (pathIn directory artifact.name) artifact.source.toUTF8 files =
      (.ok (), after)) :
    persist directory artifact files = (.ok (recordIn directory artifact), after) := by
  refine run_restate_eq_ok.mpr (run_bind_eq_ok.mpr ⟨(), after, wrote, rfl⟩)

/-- Persisting is writing in order. -/
theorem persistAll_eq_ok_iff : persistAll directory artifacts files = (.ok persisted, after) ↔
    WritesAll (writesIn directory artifacts) files after ∧
      persisted = artifacts.map (recordIn directory) := by
  constructor
  · intro ran
    refine ⟨?_, persisted_eq ran⟩
    induction artifacts generalizing files persisted with
    | nil =>
        cases ran
        exact .nil
    | cons head tail inductionHypothesis =>
        obtain ⟨middle, others, wrote, persistsTail⟩ := persistAll_cons ran
        exact .cons wrote (inductionHypothesis persistsTail)
  · rintro ⟨wrote, rfl⟩
    induction artifacts generalizing files with
    | nil =>
        cases wrote
        rfl
    | cons head tail inductionHypothesis =>
        cases wrote with
        | cons wroteHead further =>
            have persistsTail := inductionHypothesis further
            unfold persistAll at persistsTail ⊢
            rw [List.mapM_cons]
            refine run_bind_eq_ok.mpr ⟨_, _, persist_of_write head wroteHead, ?_⟩
            exact run_bind_eq_ok.mpr ⟨_, _, persistsTail, rfl⟩

end Artifact

/-! ## Runs made again -/

namespace Generation

open FileSystem (LeadsAlike WellFormed WritesAll)

variable {settings laterSettings : ResolvedSettings}
  {files opened middle after later rewritten : FileSystem} {index : ClassIndex}
  {artifacts : List Artifact} {written : Written} {manifest : Path} {content : ByteArray}

/-- The same digests of the scanned files are recorded alike. -/
theorem dependenciesOf_congr {persisted : List PersistedArtifact}
    (fromScanned : ∀ artifact ∈ artifacts, ∀ path ∈ artifact.dependencies.toList,
      path ∈ index.files)
    (same : ∀ path ∈ index.files, DependencySet.digestOf later path =
      DependencySet.digestOf files path) :
    dependenciesOf later settings index artifacts persisted =
      dependenciesOf files settings index artifacts persisted := by
  have sameDependency : ∀ path ∈ artifacts.flatMap (fun artifact =>
        artifact.dependencies.toList),
      DependencySet.digestOf later path = DependencySet.digestOf files path := by
    intro path member
    obtain ⟨artifact, isArtifact, isDependency⟩ := List.mem_flatMap.mp member
    exact same path (fromScanned artifact isArtifact path isDependency)
  have sameRecord : Artifact.record later artifacts persisted ∅ =
      Artifact.record files artifacts persisted ∅ := by
    unfold Artifact.record
    rw [DependencySet.addFiles_congr sameDependency]
  have sameScan : ∀ set : DependencySet,
      set.setScanned later index.files = set.setScanned files index.files :=
    DependencySet.setScanned_congr same
  unfold dependenciesOf
  rw [sameRecord]
  simp only [sameScan]

/-- The paths that a run writes: its artifacts, and a manifest besides them. -/
def writtenPaths (manifest directory : Path) (artifacts : List Artifact) : List Path :=
  manifest :: artifacts.map (fun artifact => Artifact.pathIn directory artifact.name)

theorem pathIn_mem_writtenPaths {directory : Path} {artifact : Artifact}
    (member : artifact ∈ artifacts) :
    Artifact.pathIn directory artifact.name ∈ writtenPaths manifest directory artifacts :=
  List.mem_cons_of_mem _ (List.mem_map.mpr ⟨artifact, member, rfl⟩)

/-- None of the written paths leads to one of the sources. -/
def WrittenApart (files : FileSystem) (written sources : List Path) : Prop :=
  ∀ path ∈ written, ∀ source ∈ sources, ¬ files.SameFile path source

instance (files : FileSystem) (written sources : List Path) :
    Decidable (WrittenApart files written sources) :=
  inferInstanceAs (Decidable (∀ path ∈ written, ∀ source ∈ sources,
    ¬ files.SameFile path source))

/-- The files of a run were apart from its sources before the manifest was written, too. -/
theorem sourcesApart_before {sources : List Path}
    (apart : WrittenApart after (writtenPaths manifest settings.proxyDirectory artifacts) sources)
    (wroteManifest : FileSystem.write manifest content middle = (.ok (), after)) :
    Artifact.SourcesApart middle settings.proxyDirectory artifacts sources := by
  obtain ⟨_, _, keeps⟩ := FileSystem.entryAt_write wroteManifest
  rintro artifact isArtifact source isSource ⟨key, old, isThere, sourceThere⟩
  exact apart _ (pathIn_mem_writtenPaths isArtifact) source isSource
    (FileSystem.sameFile_of_key (keeps _ _ _ isThere) (keeps _ _ _ sourceThere))

/-! ## The plan -/

/-- Settings with the recorded fingerprint are those of the run. -/
theorem Writes.settings_eq (writes : Writes settings files middle written opened artifacts)
    (sameFingerprint : (describedBy settings written).dependencies.fingerprint =
      laterSettings.fingerprint)
    (distinct : settings.fingerprint = laterSettings.fingerprint →
      settings.fingerprinted = laterSettings.fingerprinted) : settings = laterSettings := by
  obtain ⟨merged, isMerged, _⟩ := DependencySet.empty_extend written.dependencies
  have isRecorded : (describedBy settings written).dependencies.fingerprint =
      written.dependencies.fingerprint := by
    show ((∅ : DependencySet).extend written.dependencies).fingerprint = _
    rw [isMerged]
  apply ResolvedSettings.fingerprinted_injective (distinct _)
  rw [← sameFingerprint, isRecorded, writes.recordsAll.fingerprint]

theorem Writes.openedFormed (writes : Writes settings files middle written opened artifacts)
    (wellFormed : WellFormed files) : WellFormed opened := by
  have opens := Artifact.wellFormed_openDirectory wellFormed settings.proxyDirectory
  rw [writes.opens] at opens
  exact opens

/-- A scan that finds a container good is the one that the run has made. -/
theorem Writes.scan_eq (writes : Writes settings files middle written opened artifacts)
    (wellFormed : WellFormed files) (laterFormed : WellFormed later) {scan : List Path}
    (isFound : SourceFiles.find later settings.sourceDirectories settings.exclude = .ok scan)
    (good : ((∅ : DependencySet).extend written.dependencies).isExpired later scan = false) :
    scan = written.index.files := by
  have openedFormed := writes.openedFormed wellFormed
  have wasFound := (ClassIndex.build_eq_ok.mp (plan_eq_ok writes.plans).1).1
  exact SourceFiles.find_eq_of_samePaths openedFormed laterFormed wasFound isFound
    (samePaths_of_good writes isFound good)

/-- The same contents under the paths of a scan are planned for alike. -/
theorem plan_again (plans : plan opened settings = .ok (index, artifacts))
    (isFound : SourceFiles.find later settings.sourceDirectories settings.exclude =
      .ok index.files)
    (same : ∀ source ∈ index.files, later.read source = opened.read source) :
    plan later settings = .ok (index, artifacts) := by
  obtain ⟨built, targets, resolved, rfl⟩ := plan_eq_ok plans
  unfold plan
  refine bind_eq_ok.mpr ⟨index, ClassIndex.build_again built isFound same, ?_⟩
  exact bind_eq_ok.mpr ⟨targets, resolved, rfl⟩

/-! ## The artifacts -/

/-- The paths of the artifacts lead to files. -/
def AreThere (files : FileSystem) (directory : Path) (artifacts : List Artifact) : Prop :=
  ∀ artifact ∈ artifacts, ∃ key content,
    files.entryAt (Artifact.pathIn directory artifact.name) = .ok (key, .file content)

theorem Writes.areThere_behind (writes : Writes settings files middle written opened artifacts) :
    AreThere middle settings.proxyDirectory artifacts := by
  intro artifact member
  obtain ⟨key, _, _, isThere, _⟩ := Artifact.entryAt_artifact writes.persists member
  exact ⟨key, _, isThere⟩

/-- The artifacts of a run are still there where their paths lead alike. -/
theorem Writes.areThere (writes : Writes settings files middle written opened artifacts)
    (wroteManifest : FileSystem.write manifest content middle = (.ok (), after))
    (alike : ∀ path ∈ writtenPaths manifest settings.proxyDirectory artifacts,
      LeadsAlike after later path) : AreThere later settings.proxyDirectory artifacts := by
  obtain ⟨_, _, keeps⟩ := FileSystem.entryAt_write wroteManifest
  intro artifact member
  obtain ⟨key, content, isThere⟩ := writes.areThere_behind artifact member
  exact ⟨key, _, (alike _ (pathIn_mem_writtenPaths member) _ _).mp (keeps _ _ _ isThere)⟩

/-- The directory of the marker is open. -/
theorem openDirectory_of_areThere {targets : TargetTypes}
    (areThere : AreThere later settings.proxyDirectory
      (Artifact.all index targets settings.proxyNamespace)) :
    Artifact.openDirectory settings.proxyDirectory later = (.ok (), later) := by
  obtain ⟨key, content, isThere⟩ := areThere _ List.mem_cons_self
  have entryName : IsEntryName (Artifact.markerName ++ "." ++ Artifact.sourceExtension) := by
    decide +kernel
  exact Artifact.openDirectory_of_child entryName isThere

/-- Artifacts that are written over files apart from a source do not change it. -/
theorem read_after_rewriting {persisted : List PersistedArtifact} {source : Path}
    (persists : Artifact.persistAll settings.proxyDirectory artifacts later =
      (.ok persisted, rewritten))
    (areThere : AreThere later settings.proxyDirectory artifacts)
    (apart : ∀ artifact ∈ artifacts,
      ¬ later.SameFile (Artifact.pathIn settings.proxyDirectory artifact.name) source)
    (isRead : later.read source = .ok content) : rewritten.read source = .ok content := by
  obtain ⟨key, sourceThere⟩ := FileSystem.read_eq_ok_iff.mp isRead
  obtain ⟨left, isLeft, origin⟩ := Artifact.entryAt_persistAll persists sourceThere
  rcases origin with rfl | ⟨writer, isWriter, written, isWritten, _⟩
  · exact FileSystem.read_eq_ok_iff.mpr ⟨key, isLeft⟩
  · obtain ⟨oldKey, old, wasThere⟩ := areThere writer isWriter
    obtain ⟨_, staysThere⟩ := (Artifact.persistAll_eq_ok_iff.mp persists).1.entryAt wasThere
    rw [isWritten] at staysThere
    obtain rfl := (Prod.mk.inj (Except.ok.inj staysThere)).1
    exact absurd (FileSystem.sameFile_of_key wasThere sourceThere) (apart writer isWriter)

/-! ## The whole run -/

/-- A source has one content before and behind the artifacts of a run, and as long as the
container is good. -/
theorem Writes.contents_again (writes : Writes settings files middle written opened artifacts)
    (apart : Artifact.SourcesApart middle settings.proxyDirectory artifacts written.index.files)
    (distinct : Digest.TellsApart (Compared settings settings middle later written.index.files))
    (isFound : SourceFiles.find later settings.sourceDirectories settings.exclude =
      .ok written.index.files)
    (good : ((∅ : DependencySet).extend written.dependencies).isExpired later
      written.index.files = false) {source : Path} (member : source ∈ written.index.files) :
    ∃ content, opened.read source = .ok content ∧ middle.read source = .ok content ∧
      later.read source = .ok content := by
  have wasFound := (ClassIndex.build_eq_ok.mp (plan_eq_ok writes.plans).1).1
  obtain ⟨content, wasRead, isRead⟩ :=
    List.forall₂_same.mp (sameContent_of_good writes apart distinct isFound good) source member
  obtain ⟨former, formerRead, readBehind⟩ := read_after_run writes.persists apart member
    (SourceFiles.isFile_of_find wasFound member)
  obtain rfl := Except.ok.inj (wasRead.symm.trans formerRead)
  exact ⟨content, wasRead, readBehind, isRead⟩

/-- A run whose files are still there while its container is good goes through the same
steps again. It leaves the files as they are but for a manifest with another content. -/
theorem Writes.again (writes : Writes settings files middle written opened artifacts)
    (wroteManifest : FileSystem.write manifest content middle = (.ok (), after))
    (apart : WrittenApart after (writtenPaths manifest settings.proxyDirectory artifacts)
      written.index.files)
    (apartLater : WrittenApart later (writtenPaths manifest settings.proxyDirectory artifacts)
      written.index.files)
    (alike : ∀ path ∈ writtenPaths manifest settings.proxyDirectory artifacts,
      LeadsAlike after later path)
    (distinct : Digest.TellsApart (Compared settings settings middle later written.index.files))
    (isFound : SourceFiles.find later settings.sourceDirectories settings.exclude =
      .ok written.index.files)
    (good : ((∅ : DependencySet).extend written.dependencies).isExpired later
      written.index.files = false) :
    ∃ key rewritten, after.entryAt manifest = .ok (key, .file content) ∧
      Writes settings later rewritten written later artifacts ∧
      ∀ other, FileSystem.write manifest other rewritten =
        (.ok (), later.put key (.file other)) := by
  obtain ⟨built, targets, _, isAll⟩ := plan_eq_ok writes.plans
  have apartBefore := sourcesApart_before apart wroteManifest
  have areThere := writes.areThere wroteManifest alike
  have sameRead : ∀ source ∈ written.index.files, later.read source = opened.read source := by
    intro source member
    obtain ⟨content, wasRead, _, isRead⟩ :=
      writes.contents_again apartBefore distinct isFound good member
    rw [wasRead, isRead]
  have alikeArtifacts : ∀ former ∈ Artifact.writesIn settings.proxyDirectory artifacts,
      LeadsAlike after later former.1 := by
    intro former member
    obtain ⟨artifact, isArtifact, rfl⟩ := List.mem_map.mp member
    exact alike _ (pathIn_mem_writtenPaths isArtifact)
  obtain ⟨key, rewritten, isManifest, rewrites, writesManifest⟩ :=
    (Artifact.persistAll_eq_ok_iff.mp writes.persists).1.again wroteManifest alikeArtifacts
      (alike manifest List.mem_cons_self)
  have persists : Artifact.persistAll settings.proxyDirectory artifacts later =
      (.ok written.persisted, rewritten) :=
    Artifact.persistAll_eq_ok_iff.mpr ⟨rewrites, Artifact.persisted_eq writes.persists⟩
  -- The digests are taken behind the artifacts in both runs, of the same contents.
  have sameDigest : ∀ source ∈ written.index.files, DependencySet.digestOf rewritten source =
      DependencySet.digestOf middle source := by
    intro source member
    obtain ⟨content, _, readBefore, isRead⟩ :=
      writes.contents_again apartBefore distinct isFound good member
    have readAgain := read_after_rewriting persists areThere
      (fun artifact isArtifact => apartLater _ (pathIn_mem_writtenPaths isArtifact) source member)
      isRead
    unfold DependencySet.digestOf
    rw [readAgain, readBefore]
  have records : dependenciesOf rewritten settings written.index artifacts written.persisted =
      .ok written.dependencies := by
    rw [dependenciesOf_congr ?_ sameDigest]
    · exact writes.records
    · intro artifact isArtifact path isDependency
      rw [isAll] at isArtifact
      exact Artifact.dependencies_mem_of_build built isArtifact isDependency
  have opens : Artifact.openDirectory settings.proxyDirectory later = (.ok (), later) := by
    rw [isAll] at areThere
    exact openDirectory_of_areThere areThere
  exact ⟨key, rewritten, isManifest,
    ⟨opens, plan_again writes.plans isFound sameRead, persists, records⟩, writesManifest⟩

end Generation

end FactoryProxy
