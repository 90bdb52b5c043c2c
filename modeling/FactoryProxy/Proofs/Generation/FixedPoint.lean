import FactoryProxy.Proofs.Artifact.Naming
import FactoryProxy.Proofs.FileSystem.Growing
import FactoryProxy.Proofs.FileSystem.Linkless
import FactoryProxy.Proofs.Generation.Repeating

/-!
Contract: a completed run is a fixed point.

A run writes its artifacts after it has read the sources. Where none of them is written to
a file that a scan finds afterwards, that scan finds what the run has found, so the
container is good and a second run goes through the same steps over the same files.

In a file system without links that is so whenever the proxy directory is outside of all
source directories and no artifact is named by a path of several components.

Owns: scans after a run, directories apart, the second run, and why directories apart are
not enough with links or with slashes in names.
-/

namespace FactoryProxy.Generation

open FileSystem (HasNoLinks WellFormed)

variable {settings : ResolvedSettings} {files opened after : FileSystem} {container : Container}
  {artifacts : List Artifact} {written : Written}

/-! ## Scans after a run -/

/-- None of the artifacts is written to a file that a scan finds. -/
def Unscanned (files : FileSystem) (settings : ResolvedSettings) (artifacts : List Artifact) :
    Prop :=
  ∀ scan, SourceFiles.find files settings.sourceDirectories settings.exclude = .ok scan →
    Artifact.SourcesApart files settings.proxyDirectory artifacts scan

/-- Behind a run a scan finds the files that the run has scanned. -/
theorem Writes.found_again (writes : Writes settings files after written opened artifacts)
    (wellFormed : WellFormed files) (unscanned : Unscanned after settings artifacts) :
    SourceFiles.find after settings.sourceDirectories settings.exclude =
      .ok written.index.files := by
  have wasFound := (ClassIndex.build_eq_ok.mp (plan_eq_ok writes.plans).1).1
  refine SourceFiles.find_after_writes (Artifact.persistAll_eq_ok_iff.mp writes.persists).1
    (writes.openedFormed wellFormed) wasFound ?_
  intro scan isFound former isFormer source isSource
  obtain ⟨artifact, isArtifact, rfl⟩ := List.mem_map.mp isFormer
  exact unscanned scan isFound artifact isArtifact source isSource

/-- Behind a run the same steps lead from the files to themselves. -/
theorem Writes.over (writes : Writes settings files after written opened artifacts)
    (isFound : SourceFiles.find after settings.sourceDirectories settings.exclude =
      .ok written.index.files)
    (apart : Artifact.SourcesApart after settings.proxyDirectory artifacts written.index.files) :
    Writes settings after after written after artifacts := by
  obtain ⟨built, targets, _, isAll⟩ := plan_eq_ok writes.plans
  have wasFound := (ClassIndex.build_eq_ok.mp built).1
  have areThere := writes.areThere_behind
  obtain ⟨wrote, isPersisted⟩ := Artifact.persistAll_eq_ok_iff.mp writes.persists
  have sameRead : ∀ source ∈ written.index.files, after.read source = opened.read source := by
    intro source member
    obtain ⟨content, wasRead, isRead⟩ := read_after_run writes.persists apart member
      (SourceFiles.isFile_of_find wasFound member)
    rw [wasRead, isRead]
  refine ⟨?_, plan_again writes.plans isFound sameRead, ?_, writes.records⟩
  · rw [isAll] at areThere
    exact openDirectory_of_areThere areThere
  · exact Artifact.persistAll_eq_ok_iff.mpr ⟨wrote.over, isPersisted⟩

/-! ## Directories apart -/

/-- The proxy directory is neither a source directory nor below one. -/
def ProxyOutside (files : FileSystem) (settings : ResolvedSettings) : Prop :=
  ∀ root ∈ settings.sourceDirectories, ∀ rootKey ∈ files.directoryAt? root,
    ∀ proxyKey ∈ files.holderOf? settings.proxyDirectory, ¬ rootKey <+: proxyKey

instance (files : FileSystem) (settings : ResolvedSettings) :
    Decidable (ProxyOutside files settings) :=
  inferInstanceAs (Decidable (∀ root ∈ settings.sourceDirectories,
    ∀ rootKey ∈ files.directoryAt? root,
      ∀ proxyKey ∈ files.holderOf? settings.proxyDirectory, ¬ rootKey <+: proxyKey))

/-- Without links, directories apart keep artifacts apart from what a scan finds. -/
theorem unscanned_of_outside (wellFormed : WellFormed files) (noLinks : HasNoLinks files)
    (plain : ∀ artifact ∈ artifacts, '/' ∉ artifact.name.toList)
    (outside : ProxyOutside files settings) : Unscanned files settings artifacts := by
  rintro scan isFound artifact isArtifact source isSource ⟨key, content, isThere, sourceThere⟩
  obtain ⟨patterns, listed, _, isListed, rfl⟩ := SourceFiles.find_eq_ok.mp isFound
  obtain ⟨inListed, _⟩ := List.mem_filter.mp (OrderedSet.mem_of_mem_toList_ofList isSource)
  obtain ⟨paths, isPaths, inPaths⟩ := List.mem_flatten.mp inListed
  obtain ⟨root, isRoot, isBelow⟩ := Sequencing.exists_left isListed isPaths
  obtain ⟨nonempty, _, name, names, entryNames, rfl⟩ :=
    SourceFiles.isBelow_of_mem_below wellFormed isBelow inPaths
  obtain ⟨rootKey, rootThere⟩ := FileSystem.directory_of_descend nonempty entryNames sourceThere
  have sourceKey := noLinks.key_of_descend entryNames rootThere sourceThere
  obtain ⟨proxyKey, isProxy, artifactKey⟩ :=
    noLinks.holder_of_child (Artifact.isEntryName_fileName (plain artifact isArtifact)) isThere
  apply outside root isRoot rootKey (FileSystem.directoryAt?_of_entryAt rootThere) proxyKey isProxy
  refine ⟨(name :: names).dropLast, ?_⟩
  have sameKey := congrArg List.dropLast (sourceKey.symm.trans artifactKey)
  rw [List.dropLast_concat, List.dropLast_append_of_ne_nil (List.cons_ne_nil _ _)] at sameKey
  exact sameKey

/-! ## The second run -/

/-- A completed run that wrote to no file a scan finds behind it leaves a good container, and
a second run changes no file and gives the same container and the same report. So it is
wherever links are absent, no artifact is named with a slash and the proxy directory is
outside of the source directories. -/
theorem completed_run_is_fixed_point {report : Report} (wellFormed : WellFormed files)
    (ran : generate settings ∅ files = ((container, .ok report), after)) :
    (Unscanned after settings (plannedArtifacts settings files) →
      isFresh after settings container = .ok true ∧
        generate settings ∅ after = ((container, .ok report), after)) ∧
    (HasNoLinks after →
      (∀ artifact ∈ plannedArtifacts settings files, '/' ∉ artifact.name.toList) →
        ProxyOutside after settings →
          Unscanned after settings (plannedArtifacts settings files)) := by
  obtain ⟨written, wrote, isDescribed⟩ := generate_eq_ok ran
  obtain ⟨opened, artifacts, writes⟩ := writeArtifacts_eq_ok.mp wrote
  obtain ⟨isArtifacts, isSources⟩ := planned_eq writes.opens writes.plans
  rw [← isArtifacts]
  constructor
  · intro unscanned
    have isFound := writes.found_again wellFormed unscanned
    have writesAgain := writes.over isFound (unscanned _ isFound)
    rw [isSources] at isFound
    refine ⟨isFresh_of_kept ran isFound (fun _ _ isRead => isRead), ?_⟩
    rw [generate_of_written ∅ (writeArtifacts_eq_ok.mpr ⟨after, artifacts, writesAgain⟩),
      isDescribed]
  · have formedOpened := writes.openedFormed wellFormed
    have formedAfter :=
      (Artifact.persistAll_eq_ok_iff.mp writes.persists).1.wellFormed formedOpened
    exact unscanned_of_outside formedAfter

set_option maxRecDepth 100000 in
/-- A second run over two classes changes nothing. -/
theorem two_classes_are_fixed :
    isFresh (generate scanForT ∅ twoClasses).2 scanForT (generate scanForT ∅ twoClasses).1.1 =
        .ok true ∧
      generate scanForT ∅ (generate scanForT ∅ twoClasses).2 = generate scanForT ∅ twoClasses := by
  have ran := generate_of_report run_on_two_classes
  obtain ⟨fixed, unscanned⟩ := completed_run_is_fixed_point (by decide +kernel) ran
  obtain ⟨good, again⟩ := fixed (unscanned (by decide +kernel) (by decide +kernel)
    (by decide +kernel))
  exact ⟨good, again.trans ran.symm⟩

/-- With the proxy directory outside of the source directories a completed run is a fixed
point, in the file systems that are admitted. -/
def FixedOutside (admitted : FileSystem → Prop) : Prop :=
  ∀ (settings : ResolvedSettings) (files after : FileSystem) (container : Container)
      (report : Report),
    WellFormed files → generate settings ∅ files = ((container, .ok report), after) →
    admitted after → ProxyOutside after settings →
      isFresh after settings container = .ok true ∧
        generate settings ∅ after = ((container, .ok report), after)

set_option maxRecDepth 100000 in
/-- Through a link among its sources a run changes what it has read, and a second run fails. -/
theorem not_fixedOutside_linked : ¬ FixedOutside (fun _ => True) := by
  intro always
  have completed : (generate scanForT ∅ linkedSource).1.2 = .ok
      ⟨[⟨"A___GeneratedFactoryInterface", "G\\A___GeneratedFactoryInterface", some "A",
        ⟨"p/A___GeneratedFactoryInterface.php"⟩⟩], 1, 1, 1⟩ := by
    decide +kernel
  have ran := generate_of_report completed
  have outside : ProxyOutside (generate scanForT ∅ linkedSource).2 scanForT := by decide +kernel
  have fails : (generate scanForT ∅ (generate scanForT ∅ linkedSource).2).1.2 =
      .error (.unknownTarget "T") := by
    decide +kernel
  obtain ⟨_, again⟩ := always scanForT linkedSource _ _ _ (by decide +kernel) ran trivial outside
  rw [again] at fails
  cases fails

/-- A class whose namespace holds a comment with a path in it, and the directories on the way
of that path. -/
def pathInName : FileSystem where
  entries := .ofList [
    (["p"], .directory),
    (["p", "A"], .directory),
    (["p", "A", "*"], .directory),
    (["src"], .directory),
    (["src", "a.php"],
      .file "<?php namespace A/*/../../../src/x*/\\B; class C extends \\T\x7b\x7d".toUTF8),
    (["src", "x*"], .directory)]
  current := []

set_option maxRecDepth 100000 in
/-- A name with slashes in it leads an artifact from the proxy directory among the sources,
where the second scan finds it. -/
theorem not_fixedOutside_pathInName : ¬ FixedOutside HasNoLinks := by
  intro always
  have completed : (generate scanForT ∅ pathInName).1.2 = .ok
      ⟨[⟨"A/*/../../../src/x*/BC___GeneratedFactoryInterface",
        "G\\A/*/../../../src/x*/BC___GeneratedFactoryInterface",
        some "A/*/../../../src/x*/\\B\\C",
        ⟨"p/A/*/../../../src/x*/BC___GeneratedFactoryInterface.php"⟩⟩], 1, 1, 1⟩ := by
    decide +kernel
  have ran := generate_of_report completed
  have outside : ProxyOutside (generate scanForT ∅ pathInName).2 scanForT := by decide +kernel
  have isStale : isFresh (generate scanForT ∅ pathInName).2 scanForT
      (generate scanForT ∅ pathInName).1.1 = .ok false := by
    decide +kernel
  obtain ⟨good, _⟩ := always scanForT pathInName _ _ _ (by decide +kernel) ran
    (by decide +kernel) outside
  rw [isStale] at good
  cases good

/-- It is not enough that the proxy directory is outside of the source directories: a run may
write through a link, and without links through a name with slashes. -/
theorem links_and_paths_in_names_not_fixed :
    ¬ FixedOutside (fun _ => True) ∧ ¬ FixedOutside HasNoLinks :=
  ⟨not_fixedOutside_linked, not_fixedOutside_pathInName⟩

end FactoryProxy.Generation
