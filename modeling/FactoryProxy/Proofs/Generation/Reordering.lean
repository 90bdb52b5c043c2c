import FactoryProxy.Proofs.FileSystem.Growing
import FactoryProxy.Proofs.Generation.Repeating
import FactoryProxy.Proofs.Selection

/-!
Contract: the order of the lists in settings does not count.

Directories, patterns and targets are given as lists, but a run depends on their members
only. A scan puts its paths in order, and whichever spelling of a path it keeps leads to
the same file. Targets are compared by their keys.

Owns: settings with the same members in their lists, and the scans, plans and runs of such
settings.
-/

namespace FactoryProxy

open Sequencing

/-- The settings have the same members in their lists and agree in the rest. -/
structure ResolvedSettings.Reordered (left right : ResolvedSettings) : Prop where
  scanFor : SameElements left.scanFor right.scanFor
  sourceDirectories : SameElements left.sourceDirectories right.sourceDirectories
  exclude : SameElements left.exclude right.exclude
  proxyNamespace : left.proxyNamespace = right.proxyNamespace
  proxyDirectory : left.proxyDirectory = right.proxyDirectory

theorem ResolvedSettings.Reordered.symm {left right : ResolvedSettings}
    (reordered : left.Reordered right) : right.Reordered left where
  scanFor := reordered.scanFor.symm
  sourceDirectories := reordered.sourceDirectories.symm
  exclude := reordered.exclude.symm
  proxyNamespace := reordered.proxyNamespace.symm
  proxyDirectory := reordered.proxyDirectory.symm

/-! ## Scans -/

namespace SourceFiles

variable {files : FileSystem} {roots otherRoots scan otherScan : List Path}
  {exclude otherExclude : List String} {patterns otherPatterns : List (List Glob.Token)}

theorem counts_of_sameElements (same : SameElements patterns otherPatterns) (path : Path) :
    counts files patterns path = counts files otherPatterns path := by
  unfold counts
  rw [same.any]

/-- Of the same listings the same paths count. -/
theorem sameElements_counted {listed otherListed : List (List Path)}
    (samePatterns : SameElements patterns otherPatterns) (same : SameElements listed otherListed) :
    SameElements (counted files patterns listed.flatten)
      (counted files otherPatterns otherListed.flatten) := by
  intro path
  unfold counted
  rw [List.mem_filter, List.mem_filter, List.mem_flatten, List.mem_flatten,
    counts_of_sameElements samePatterns]
  exact and_congr_left' (exists_congr (fun paths => and_congr_left' (same paths)))

/-- Scans below the same directories with the same patterns find the same paths, perhaps in
other spellings. -/
theorem find_of_sameElements (sameRoots : SameElements roots otherRoots)
    (sameExclude : SameElements exclude otherExclude)
    (isFound : find files roots exclude = .ok scan) :
    ∃ otherScan, find files otherRoots otherExclude = .ok otherScan ∧
      List.Forall₂ DependencySet.SamePath otherScan scan := by
  obtain ⟨patterns, listed, isCompiled, isListed, rfl⟩ := find_eq_ok.mp isFound
  obtain ⟨otherPatterns, isOtherCompiled, samePatterns⟩ :=
    mapM_of_sameElements sameExclude isCompiled
  obtain ⟨otherListed, isOtherListed, sameListed⟩ :=
    mapM_of_sameElements sameRoots (mapM_eq_ok.mpr isListed)
  have same : SameElements (counted files patterns listed.flatten)
      (counted files otherPatterns otherListed.flatten) :=
    sameElements_counted samePatterns sameListed
  refine ⟨_, find_eq_ok.mpr
    ⟨otherPatterns, otherListed, isOtherCompiled, mapM_eq_ok.mp isOtherListed, rfl⟩, ?_⟩
  refine (OrderedSet.forall₂_ofList ?_ ?_).imp (fun _ _ => Path.compare_eq_iff.mp)
  · exact fun path member => ⟨path, (same path).mpr member, Std.ReflCmp.compare_self⟩
  · exact fun path member => ⟨path, (same path).mp member, Std.ReflCmp.compare_self⟩

/-- Scans that find the same paths find the same contents. -/
theorem sameContent_of_samePaths (isFound : find files roots exclude = .ok scan)
    (isOtherFound : find files otherRoots otherExclude = .ok otherScan)
    (same : List.Forall₂ DependencySet.SamePath otherScan scan) :
    List.Forall₂ (ClassIndex.SameContent files files) otherScan scan := by
  refine forall₂_of_mem same (fun otherPath isOther path member samePath => ?_)
  obtain ⟨content, isRead⟩ := FileSystem.isFile_iff.mp (isFile_of_find isFound member)
  exact ⟨content, isRead, FileSystem.read_of_components samePath.symm isRead
    (isFile_of_find isOtherFound isOther)⟩

end SourceFiles

/-! ## Indexes -/

namespace ClassIndex

theorem size_unplaced (index : ClassIndex) : index.unplaced.size = index.size :=
  List.length_map _

/-- Indexes of the same directories differ in the spelling of paths only. -/
theorem build_of_sameElements {files : FileSystem} {roots otherRoots : List Path}
    {exclude otherExclude : List String} {index : ClassIndex}
    (sameRoots : SameElements roots otherRoots) (sameExclude : SameElements exclude otherExclude)
    (built : build files roots exclude = .ok index) :
    ∃ other, build files otherRoots otherExclude = .ok other ∧
      other.unplaced = index.unplaced ∧ other.files.length = index.files.length := by
  have isFound := (build_eq_ok.mp built).1
  obtain ⟨otherScan, isOtherFound, samePaths⟩ :=
    SourceFiles.find_of_sameElements sameRoots sameExclude isFound
  obtain ⟨other, builtOther, same⟩ := build_of_sameContent built isOtherFound
    (SourceFiles.sameContent_of_samePaths isFound isOtherFound samePaths)
  refine ⟨other, builtOther, same, ?_⟩
  rw [Except.ok.inj ((build_eq_ok.mp builtOther).1.symm.trans isOtherFound)]
  exact samePaths.length_eq

end ClassIndex

/-! ## Runs -/

namespace Generation

variable {left right : ResolvedSettings} {files opened after : FileSystem} {index : ClassIndex}
  {artifacts : List Artifact} {written : Written}

/-- Reordered settings plan the same artifacts, made from perhaps other spellings of files. -/
theorem plan_of_reordered (reordered : left.Reordered right)
    (plans : plan files left = .ok (index, artifacts)) :
    ∃ other otherArtifacts, plan files right = .ok (other, otherArtifacts) ∧
      otherArtifacts.map Artifact.detached = artifacts.map Artifact.detached ∧
      other.size = index.size ∧ other.files.length = index.files.length := by
  obtain ⟨built, targets, resolved, rfl⟩ := plan_eq_ok plans
  obtain ⟨other, builtOther, sameIndex, sameLength⟩ :=
    ClassIndex.build_of_sameElements reordered.sourceDirectories reordered.exclude built
  obtain ⟨others, resolvesHere, sameSelection⟩ :=
    TargetTypes.resolve_of_sameElements reordered.scanFor resolved
  have resolvesOthers : TargetTypes.resolve other right.scanFor = .ok others := by
    rw [← TargetTypes.resolve_unplaced, sameIndex, TargetTypes.resolve_unplaced]
    exact resolvesHere
  refine ⟨other, Artifact.all other others right.proxyNamespace, ?_, ?_, ?_, sameLength⟩
  · unfold plan
    exact bind_eq_ok.mpr ⟨other, builtOther, bind_eq_ok.mpr ⟨others, resolvesOthers, rfl⟩⟩
  · rw [← Artifact.detached_all, sameIndex, Artifact.detached_all, ← reordered.proxyNamespace]
    unfold Artifact.all
    rw [sameSelection]
  · rw [← ClassIndex.size_unplaced, sameIndex, ClassIndex.size_unplaced]

theorem writesIn_detached (directory : Path) (artifacts : List Artifact) :
    Artifact.writesIn directory (artifacts.map Artifact.detached) =
      Artifact.writesIn directory artifacts := by
  unfold Artifact.writesIn
  rw [List.map_map]
  rfl

/-- Artifacts that differ only in what they were made from are written alike. -/
theorem persistAll_of_detached {directory : Path} {others : List Artifact}
    {persisted : List PersistedArtifact}
    (same : others.map Artifact.detached = artifacts.map Artifact.detached)
    (persists : Artifact.persistAll directory artifacts files = (.ok persisted, after)) :
    Artifact.persistAll directory others files = (.ok persisted, after) := by
  rw [Artifact.persistAll_eq_ok_iff] at persists ⊢
  rw [← writesIn_detached, ← map_recordIn_detached, same, writesIn_detached,
    map_recordIn_detached]
  exact persists

/-- Behind the writes of a plan everything that was scanned can be recorded. -/
theorem dependenciesOf_isOk {settings : ResolvedSettings} {persisted : List PersistedArtifact}
    (plans : plan opened settings = .ok (index, artifacts))
    (persists : Artifact.persistAll settings.proxyDirectory artifacts opened =
      (.ok persisted, after)) :
    ∃ dependencies,
      dependenciesOf after settings index artifacts persisted = .ok dependencies := by
  obtain ⟨built, targets, _, isAll⟩ := plan_eq_ok plans
  have grows := (Artifact.persistAll_eq_ok_iff.mp persists).1.grows
  have digested : ∀ path ∈ index.files, ∃ digest,
      DependencySet.digestOf after path = .ok digest := by
    intro path member
    have wasFile := SourceFiles.isFile_of_find (ClassIndex.build_eq_ok.mp built).1 member
    obtain ⟨content, isRead⟩ := FileSystem.isFile_iff.mp (grows.isFile wasFile)
    exact ⟨_, map_eq_ok.mpr ⟨content, isRead, rfl⟩⟩
  have added : ∀ set : DependencySet, (set.addFiles after
      (artifacts.flatMap (fun artifact => artifact.dependencies.toList))).2 = .ok () := by
    refine DependencySet.addFiles_isOk (fun path member => ?_)
    obtain ⟨artifact, isArtifact, isDependency⟩ := List.mem_flatMap.mp member
    rw [isAll] at isArtifact
    exact digested path (Artifact.dependencies_mem_of_build built isArtifact isDependency)
  obtain ⟨recorded, isRecorded⟩ : ∃ recorded,
      Artifact.record after artifacts persisted ∅ = (recorded, .ok ()) := by
    unfold Artifact.record
    rw [← Prod.eta ((∅ : DependencySet).addFiles after _), added]
    exact ⟨_, rfl⟩
  obtain ⟨scanned, isScanned⟩ := DependencySet.setScanned_isOk digested recorded
  unfold dependenciesOf
  rw [isRecorded]
  refine ⟨scanned.setFingerprint settings.fingerprint, bind_eq_ok.mpr ⟨(), rfl, ?_⟩⟩
  exact bind_eq_ok.mpr ⟨scanned, mapError_eq_ok.mpr isScanned, rfl⟩

/-- Reordered settings go through the same writes. -/
theorem Writes.reordered (reordered : left.Reordered right)
    (writes : Writes left files after written opened artifacts) :
    ∃ other otherArtifacts, Writes right files after other opened otherArtifacts ∧
      other.persisted = written.persisted ∧ reportOf other = reportOf written := by
  obtain ⟨index, otherArtifacts, plans, sameArtifacts, sameSize, sameLength⟩ :=
    plan_of_reordered reordered writes.plans
  have persists := persistAll_of_detached sameArtifacts writes.persists
  have opens := writes.opens
  rw [reordered.proxyDirectory] at persists opens
  obtain ⟨dependencies, records⟩ := dependenciesOf_isOk plans persists
  refine ⟨⟨index, written.persisted, dependencies⟩, otherArtifacts,
    ⟨opens, plans, persists, records⟩, rfl, ?_⟩
  unfold reportOf
  rw [sameSize, sameLength]

/-- With reordered settings a run that completes still does, in the same files and with the
same report and definitions. -/
theorem generate_of_reordered (reordered : left.Reordered right) {container : Container}
    {report : Report} (ran : generate left ∅ files = ((container, .ok report), after)) :
    ∃ other, generate right ∅ files = ((other, .ok report), after) ∧
      other.definitions = container.definitions ∧
      other.initializers = container.initializers := by
  obtain ⟨written, wrote, isDescribed⟩ := generate_eq_ok ran
  obtain ⟨opened, artifacts, writes⟩ := writeArtifacts_eq_ok.mp wrote
  obtain ⟨otherWritten, otherArtifacts, otherWrites, samePersisted, sameReport⟩ :=
    writes.reordered reordered
  have otherWrote := writeArtifacts_eq_ok.mpr ⟨opened, otherArtifacts, otherWrites⟩
  rw [describe_empty] at isDescribed
  obtain ⟨rfl, isReport⟩ := Prod.mk.inj isDescribed
  refine ⟨describedBy right otherWritten, ?_, ?_, ?_⟩
  · rw [generate_of_written ∅ otherWrote, describe_empty, sameReport, isReport]
  · show Container.numberedFrom 0 (Container.factoriesOf otherWritten.persisted) =
      Container.numberedFrom 0 (Container.factoriesOf written.persisted)
    rw [samePersisted]
  · show [(⟨right.proxyDirectory, right.proxyNamespace⟩ : Initializer)] =
      [⟨left.proxyDirectory, left.proxyNamespace⟩]
    rw [reordered.proxyDirectory, reordered.proxyNamespace]

/-- Of two runs into an empty container with reordered settings both complete or none does.
Completed ones leave the same files, the same report and the same definitions under the same
names. -/
theorem reordered_settings_generate_alike (reordered : left.Reordered right)
    (files : FileSystem) :
    ((∃ report, (generate left ∅ files).1.2 = .ok report) ↔
      ∃ report, (generate right ∅ files).1.2 = .ok report) ∧
    ∀ (container : Container) (report : Report) (after : FileSystem),
      generate left ∅ files = ((container, .ok report), after) →
        ∃ other, generate right ∅ files = ((other, .ok report), after) ∧
          other.definitions = container.definitions ∧
          other.initializers = container.initializers := by
  have completes : ∀ {former later : ResolvedSettings}, former.Reordered later →
      (∃ report, (generate former ∅ files).1.2 = .ok report) →
        ∃ report, (generate later ∅ files).1.2 = .ok report := by
    rintro former later sameMembers ⟨report, completed⟩
    obtain ⟨other, again, _⟩ := generate_of_reordered sameMembers (generate_of_report completed)
    exact ⟨report, congrArg (fun result => result.1.2) again⟩
  exact ⟨⟨completes reordered, completes reordered.symm⟩,
    fun _ _ _ => generate_of_reordered reordered⟩

/-- One directory in two spellings, and two targets. -/
def scanInOrder : ResolvedSettings :=
  ⟨["T", "A"], [⟨"src"⟩, ⟨"src//"⟩], "G", ⟨"p"⟩, []⟩

/-- The same members in another order, some of them twice. -/
def scanOutOfOrder : ResolvedSettings :=
  ⟨["A", "T", "A"], [⟨"src//"⟩, ⟨"src"⟩, ⟨"src//"⟩], "G", ⟨"p"⟩, []⟩

set_option maxRecDepth 100000 in
/-- Reordered settings scan other spellings of two classes and leave the same factories. -/
theorem two_classes_out_of_order :
    plannedSources scanInOrder twoClasses ≠ plannedSources scanOutOfOrder twoClasses ∧
    ∃ other report,
      generate scanOutOfOrder ∅ twoClasses =
        ((other, .ok report), (generate scanInOrder ∅ twoClasses).2) ∧
      report.definitions = 2 ∧
      other.definitions = (generate scanInOrder ∅ twoClasses).1.1.definitions := by
  have reordered : scanInOrder.Reordered scanOutOfOrder :=
    ⟨by decide, by decide, by decide, rfl, rfl⟩
  have completed : (generate scanInOrder ∅ twoClasses).1.2 = .ok {
      factories := [
        ⟨"A___GeneratedFactoryInterface", "G\\A___GeneratedFactoryInterface", some "A",
          ⟨"p/A___GeneratedFactoryInterface.php"⟩⟩,
        ⟨"B___GeneratedFactoryInterface", "G\\B___GeneratedFactoryInterface", some "B",
          ⟨"p/B___GeneratedFactoryInterface.php"⟩⟩]
      definitions := 2
      indexedClasses := 2
      scannedFiles := 2 } := by
    decide +kernel
  obtain ⟨other, again, sameDefinitions, _⟩ :=
    (reordered_settings_generate_alike reordered twoClasses).2 _ _ _ (generate_of_report completed)
  exact ⟨by decide +kernel, other, _, again, rfl, sameDefinitions⟩

end Generation

end FactoryProxy
