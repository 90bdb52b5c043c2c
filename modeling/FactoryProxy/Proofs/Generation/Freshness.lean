import FactoryProxy.Proofs.Generation.Recording
import FactoryProxy.Proofs.Settings.Fingerprint
import Mathlib.Data.List.Nodup

/-!
Contract: a container that is still good describes what a new run would make.

A container records the digests of the settings and of the scanned files. Where these
digests belong to one text each, a good container was made with the given settings from
the texts that a scan finds now, so the classes, the selection and the artifacts are
the same.

The scanned files are read once before the artifacts are written, and their digests
are taken afterwards. So no artifact may be written to a scanned file, and a link
among the sources may lead to one although no path of an artifact is scanned.

Owns: the messages that digests have to tell apart, the contents behind recorded
digests, and the later plan.

Does not own: what a run records, which `Generation.Recording` gives.
-/

namespace FactoryProxy

open Sequencing

/-! ## Conditions -/

/-- No two of the messages have one digest. -/
def Digest.TellsApart (messages : ByteArray → Prop) : Prop :=
  ∀ left right, messages left → messages right → ofBytes left = ofBytes right → left = right

/-- No artifact is written to a file among the given ones. -/
def Artifact.SourcesApart (files : FileSystem) (directory : Path) (artifacts : List Artifact)
    (sources : List Path) : Prop :=
  ∀ artifact ∈ artifacts, ∀ source ∈ sources,
    ¬ files.SameFile (pathIn directory artifact.name) source

instance (files : FileSystem) (directory : Path) (artifacts : List Artifact)
    (sources : List Path) : Decidable (Artifact.SourcesApart files directory artifacts sources) :=
  inferInstanceAs (Decidable (∀ artifact ∈ artifacts, ∀ source ∈ sources,
    ¬ files.SameFile (Artifact.pathIn directory artifact.name) source))

namespace Generation

variable {settings laterSettings : ResolvedSettings} {files opened after later : FileSystem}
  {container : Container} {index : ClassIndex} {artifacts : List Artifact}

/-- The messages whose digests are compared: both settings, and the contents of the
scanned files behind the run and later. -/
inductive Compared (settings laterSettings : ResolvedSettings) (after later : FileSystem)
    (scanned : List Path) : ByteArray → Prop where
  | settings : Compared settings laterSettings after later scanned settings.fingerprinted
  | laterSettings :
      Compared settings laterSettings after later scanned laterSettings.fingerprinted
  | content {path : Path} {content : ByteArray} (member : path ∈ scanned)
      (isRead : after.read path = .ok content) :
      Compared settings laterSettings after later scanned content
  | laterContent {path : Path} {content : ByteArray} (member : path ∈ scanned)
      (isRead : later.read path = .ok content) :
      Compared settings laterSettings after later scanned content

/-- Digests tell compared messages apart if they tell listed ones apart. -/
theorem tellsApart_of_listed {scanned : List Path} (listed : List ByteArray)
    (hasSettings : settings.fingerprinted ∈ listed)
    (hasLaterSettings : laterSettings.fingerprinted ∈ listed)
    (hasContents : ∀ path ∈ scanned,
      after.read path ∈ listed.map Except.ok ∧ later.read path ∈ listed.map Except.ok)
    (distinct : (listed.map Digest.ofBytes).Nodup) :
    Digest.TellsApart (Compared settings laterSettings after later scanned) := by
  have isListed : ∀ content : ByteArray,
      (Except.ok content : Except IoFailure ByteArray) ∈ listed.map Except.ok →
        content ∈ listed := by
    intro content member
    obtain ⟨message, isMessage, same⟩ := List.mem_map.mp member
    rw [← Except.ok.inj same]
    exact isMessage
  have all : ∀ message, Compared settings laterSettings after later scanned message →
      message ∈ listed := by
    intro message compared
    cases compared with
    | settings => exact hasSettings
    | laterSettings => exact hasLaterSettings
    | content member isRead =>
        have listedRead := (hasContents _ member).1
        rw [isRead] at listedRead
        exact isListed message listedRead
    | laterContent member isRead =>
        have listedRead := (hasContents _ member).2
        rw [isRead] at listedRead
        exact isListed message listedRead
  intro left right isLeft isRight same
  exact List.inj_on_of_nodup_map distinct (all left isLeft) (all right isRight) same

/-! ## Contents behind recorded digests -/

/-- A scanned file has the content after a run that was read in it. -/
theorem read_after_run {persisted : List PersistedArtifact} {path : Path}
    (persists : Artifact.persistAll settings.proxyDirectory artifacts opened =
      (.ok persisted, after))
    (apart : Artifact.SourcesApart after settings.proxyDirectory artifacts index.files)
    (member : path ∈ index.files) (isFile : opened.isFile path = true) :
    ∃ content, opened.read path = .ok content ∧ after.read path = .ok content := by
  obtain ⟨content, isRead⟩ := FileSystem.isFile_iff.mp isFile
  obtain ⟨key, isThere⟩ := FileSystem.read_eq_ok_iff.mp isRead
  obtain ⟨left, isLeft, origin⟩ := Artifact.entryAt_persistAll persists isThere
  rcases origin with rfl | ⟨writer, isWriter, written, isWritten, _⟩
  · exact ⟨left, isRead, FileSystem.read_eq_ok_iff.mpr ⟨key, isLeft⟩⟩
  · exact absurd (FileSystem.sameFile_of_key isWritten isLeft) (apart writer isWriter path member)

/-- A recorded file whose digest is the recorded one later has its former content. -/
theorem read_later {path : Path} {entry : Path × String} {content : ByteArray}
    (distinct : Digest.TellsApart (Compared settings laterSettings after later index.files))
    (member : path ∈ index.files) (isRead : after.read path = .ok content)
    (isRecord : DependencySet.IsRecord after path entry)
    (unchanged : DependencySet.digestOf later entry.1 = .ok entry.2) :
    later.read path = .ok content := by
  obtain ⟨rfl, isDigest⟩ := isRecord
  unfold DependencySet.digestOf at isDigest unchanged
  obtain ⟨laterContent, isLaterRead, sameDigest⟩ := map_eq_ok.mp unchanged
  rw [isRead] at isDigest
  rw [isLaterRead]
  rw [distinct laterContent content (.laterContent member isLaterRead) (.content member isRead)
    (sameDigest.trans (Except.ok.inj isDigest).symm)]

/-- The scan that finds a container good finds the paths that a run has recorded. -/
theorem samePaths_of_good {written : Written} {scan : List Path}
    (writes : Writes settings files after written opened artifacts)
    (isFound : SourceFiles.find later laterSettings.sourceDirectories laterSettings.exclude =
      .ok scan)
    (good : ((∅ : DependencySet).extend written.dependencies).isExpired later scan = false) :
    List.Forall₂ DependencySet.SamePath scan written.index.files := by
  obtain ⟨merged, isMerged, _⟩ := DependencySet.empty_extend written.dependencies
  rw [isMerged] at good
  have samePaths := (DependencySet.isExpired_eq_false_iff.mp good).1
  rw [OrderedSet.toList_ofList (SourceFiles.increasing_of_find isFound),
    show written.dependencies.scanned.keys = written.index.files from
      DependencySet.paths_of_records writes.recordsAll.scanned] at samePaths
  exact samePaths

/-- The scan that finds a container good finds the contents that a run has read. -/
theorem sameContent_of_good {written : Written} {scan : List Path}
    (writes : Writes settings files after written opened artifacts)
    (apart : Artifact.SourcesApart after settings.proxyDirectory artifacts written.index.files)
    (distinct :
      Digest.TellsApart (Compared settings laterSettings after later written.index.files))
    (isFound : SourceFiles.find later laterSettings.sourceDirectories laterSettings.exclude =
      .ok scan)
    (good : ((∅ : DependencySet).extend written.dependencies).isExpired later scan = false) :
    List.Forall₂ (ClassIndex.SameContent opened later) scan written.index.files := by
  have wasFound := (ClassIndex.build_eq_ok.mp (plan_eq_ok writes.plans).1).1
  have records := (writes.recordsAll).scanned
  have samePaths := samePaths_of_good writes isFound good
  obtain ⟨merged, isMerged, _⟩ := DependencySet.empty_extend written.dependencies
  rw [isMerged] at good
  obtain ⟨_, _, unchanged, _⟩ := DependencySet.isExpired_eq_false_iff.mp good
  have recordedContent : ∀ path ∈ written.index.files, ∃ content,
      opened.read path = .ok content ∧ later.read path = .ok content := by
    intro path member
    obtain ⟨content, wasRead, isRead⟩ := read_after_run writes.persists apart member
      (SourceFiles.isFile_of_find wasFound member)
    obtain ⟨entry, isEntry, isRecord⟩ := exists_right records member
    exact ⟨content, wasRead, read_later distinct member isRead isRecord (unchanged entry isEntry)⟩
  refine forall₂_of_mem samePaths (fun laterPath laterMember path member same => ?_)
  obtain ⟨content, wasRead, isRead⟩ := recordedContent path member
  exact ⟨content, wasRead, FileSystem.read_of_components same.symm isRead
    (SourceFiles.isFile_of_find isFound laterMember)⟩

/-! ## The later plan -/

/-- An index of the same classes gives the same artifacts. -/
theorem plan_of_unplaced {laterIndex : ClassIndex}
    (plans : plan files settings = .ok (index, artifacts))
    (built : ClassIndex.build later settings.sourceDirectories settings.exclude = .ok laterIndex)
    (same : laterIndex.unplaced = index.unplaced) :
    ∃ laterArtifacts, plan later settings = .ok (laterIndex, laterArtifacts) ∧
      laterArtifacts.map Artifact.detached = artifacts.map Artifact.detached := by
  obtain ⟨_, targets, resolved, rfl⟩ := plan_eq_ok plans
  have resolvedLater : TargetTypes.resolve laterIndex settings.scanFor = .ok targets := by
    rw [← TargetTypes.resolve_unplaced, same, TargetTypes.resolve_unplaced]
    exact resolved
  refine ⟨Artifact.all laterIndex targets settings.proxyNamespace, ?_, ?_⟩
  · unfold plan
    exact bind_eq_ok.mpr ⟨laterIndex, built, bind_eq_ok.mpr ⟨targets, resolvedLater, rfl⟩⟩
  · rw [← Artifact.detached_all, same, Artifact.detached_all]

theorem map_recordIn_detached (directory : Path) (artifacts : List Artifact) :
    (artifacts.map Artifact.detached).map (Artifact.recordIn directory) =
      artifacts.map (Artifact.recordIn directory) := by
  rw [List.map_map]
  rfl

/-- After a run into an empty container that wrote to no scanned file: whenever the
container is good, a plan succeeds with the artifacts of the run, and emitting them
gives the definitions in the container. -/
theorem good_container_describes_plan {report : Report}
    (ran : generate settings ∅ files = ((container, .ok report), after)) :
    ∃ opened index artifacts,
      Artifact.openDirectory settings.proxyDirectory files = (.ok (), opened) ∧
      plan opened settings = .ok (index, artifacts) ∧
      (Artifact.SourcesApart after settings.proxyDirectory artifacts index.files →
        ∀ (later : FileSystem) (laterSettings : ResolvedSettings),
          Digest.TellsApart (Compared settings laterSettings after later index.files) →
          isFresh later laterSettings container = .ok true →
            ∃ laterIndex laterArtifacts,
              plan later laterSettings = .ok (laterIndex, laterArtifacts) ∧
              laterArtifacts.map Artifact.detached = artifacts.map Artifact.detached ∧
              ∃ definitions,
                (∅ : Container).emit
                    (laterArtifacts.map (Artifact.recordIn laterSettings.proxyDirectory)) =
                  ({ (∅ : Container) with definitions := container.definitions },
                    .ok definitions)) := by
  obtain ⟨written, opened, artifacts, writes, rfl⟩ := generate_empty_eq_ok ran
  have built := (plan_eq_ok writes.plans).1
  refine ⟨opened, written.index, artifacts, writes.opens, writes.plans, ?_⟩
  intro apart later laterSettings distinct good
  obtain ⟨sameFingerprint, scan, isFound, unexpired⟩ := isFresh_eq_true_iff.mp good
  have sameSettings : settings = laterSettings := by
    have sameDigest : settings.fingerprint = laterSettings.fingerprint := by
      obtain ⟨merged, isMerged, _⟩ := DependencySet.empty_extend written.dependencies
      rw [← writes.recordsAll.fingerprint, ← sameFingerprint]
      unfold describedBy
      rw [isMerged]
    exact ResolvedSettings.fingerprinted_injective
      (distinct _ _ .settings .laterSettings sameDigest)
  subst sameSettings
  obtain ⟨laterIndex, builtLater, sameIndex⟩ := ClassIndex.build_of_sameContent built isFound
    (sameContent_of_good writes apart distinct isFound unexpired)
  obtain ⟨laterArtifacts, plansLater, sameArtifacts⟩ :=
    plan_of_unplaced writes.plans builtLater sameIndex
  -- The record of an artifact does not mention the files it was made from.
  have samePersisted : laterArtifacts.map (Artifact.recordIn settings.proxyDirectory) =
      written.persisted := by
    rw [← map_recordIn_detached, sameArtifacts, map_recordIn_detached]
    exact (Artifact.persisted_eq writes.persists).symm
  refine ⟨laterIndex, laterArtifacts, plansLater, sameArtifacts,
    (Container.factoriesOf written.persisted).length, ?_⟩
  rw [samePersisted, Container.emit_empty]
  rfl

set_option maxRecDepth 100000 in
/-- The container of two factories describes what a second run would make. -/
theorem container_of_two_classes_describes_plan :
    ∃ laterIndex laterArtifacts,
      plan (generate scanForT ∅ twoClasses).2 scanForT = .ok (laterIndex, laterArtifacts) ∧
      laterArtifacts.map Artifact.detached =
        (plannedArtifacts scanForT twoClasses).map Artifact.detached ∧
      ∃ definitions,
        (∅ : Container).emit (laterArtifacts.map (Artifact.recordIn ⟨"p"⟩)) =
          ({ (∅ : Container) with
              definitions := (generate scanForT ∅ twoClasses).1.1.definitions },
            .ok definitions) := by
  have ran : generate scanForT ∅ twoClasses =
      (((generate scanForT ∅ twoClasses).1.1, .ok _), (generate scanForT ∅ twoClasses).2) :=
    Prod.ext (Prod.ext rfl run_on_two_classes) rfl
  obtain ⟨opened, index, artifacts, opens, plans, describes⟩ := good_container_describes_plan ran
  obtain ⟨isArtifacts, isSources⟩ := planned_eq opens plans
  rw [isArtifacts, isSources] at describes
  have apart : Artifact.SourcesApart (generate scanForT ∅ twoClasses).2 scanForT.proxyDirectory
      (plannedArtifacts scanForT twoClasses) (plannedSources scanForT twoClasses) := by
    decide +kernel
  have good : isFresh (generate scanForT ∅ twoClasses).2 scanForT
      (generate scanForT ∅ twoClasses).1.1 = .ok true :=
    isFresh_of_kept ran (by decide +kernel) (fun _ _ isRead => isRead)
  have distinct : Digest.TellsApart (Compared scanForT scanForT
      (generate scanForT ∅ twoClasses).2 (generate scanForT ∅ twoClasses).2
      (plannedSources scanForT twoClasses)) := by
    apply tellsApart_of_listed [scanForT.fingerprinted, "<?php class A extends T{}".toUTF8,
      "<?php class B extends T{}".toUTF8]
    · exact List.mem_cons_self
    · exact List.mem_cons_self
    · decide +kernel
    · decide +kernel
  exact describes apart _ _ distinct good

/-- A source that is a link to the file of the marker, which declares a class below the
target `T` until the marker is written. -/
def linkedSource : FileSystem where
  entries := .ofList [
    (["p"], .directory),
    (["p", "IGeneratedFactory.php"], .file "<?php class A extends T{}".toUTF8),
    (["src"], .directory),
    (["src", "a.php"], .link "../p/IGeneratedFactory.php")]
  current := []

set_option maxRecDepth 100000 in
/-- It is not enough that no path of an artifact is scanned: a run through a link leaves a
good container, and behind it no declaration refers to the target. -/
theorem linked_source_not_described :
    ¬ ∀ (settings laterSettings : ResolvedSettings) (files after later : FileSystem)
        (container : Container) (report : Report),
      generate settings ∅ files = ((container, .ok report), after) →
      (∀ artifact ∈ plannedArtifacts settings files, ∀ source ∈ plannedSources settings files,
        source.same (Artifact.pathIn settings.proxyDirectory artifact.name) = false) →
      Digest.TellsApart (Compared settings laterSettings after later
        (plannedSources settings files)) →
      isFresh later laterSettings container = .ok true →
        ∃ laterIndex laterArtifacts,
          plan later laterSettings = .ok (laterIndex, laterArtifacts) ∧
          laterArtifacts.map Artifact.detached =
            (plannedArtifacts settings files).map Artifact.detached := by
  intro always
  have completed : (generate scanForT ∅ linkedSource).1.2 = .ok
      ⟨[⟨"A___GeneratedFactoryInterface", "G\\A___GeneratedFactoryInterface", some "A",
        ⟨"p/A___GeneratedFactoryInterface.php"⟩⟩], 1, 1, 1⟩ := by
    decide +kernel
  have ran : generate scanForT ∅ linkedSource =
      (((generate scanForT ∅ linkedSource).1.1, .ok _), (generate scanForT ∅ linkedSource).2) :=
    Prod.ext (Prod.ext rfl completed) rfl
  have unscanned : ∀ artifact ∈ plannedArtifacts scanForT linkedSource,
      ∀ source ∈ plannedSources scanForT linkedSource,
        source.same (Artifact.pathIn scanForT.proxyDirectory artifact.name) = false := by
    decide +kernel
  have good : isFresh (generate scanForT ∅ linkedSource).2 scanForT
      (generate scanForT ∅ linkedSource).1.1 = .ok true :=
    isFresh_of_kept ran (by decide +kernel) (fun _ _ isRead => isRead)
  have distinct : Digest.TellsApart (Compared scanForT scanForT
      (generate scanForT ∅ linkedSource).2 (generate scanForT ∅ linkedSource).2
      (plannedSources scanForT linkedSource)) := by
    apply tellsApart_of_listed [scanForT.fingerprinted, (Artifact.marker "G").source.toUTF8]
    · exact List.mem_cons_self
    · exact List.mem_cons_self
    · decide +kernel
    · decide +kernel
  have fails : (plan (generate scanForT ∅ linkedSource).2 scanForT).isOk = false := by
    decide +kernel
  obtain ⟨laterIndex, laterArtifacts, plans, _⟩ :=
    always scanForT scanForT linkedSource _ _ _ _ ran unscanned distinct good
  rw [plans] at fails
  cases fails

end Generation

end FactoryProxy
