import FactoryProxy.Proofs.Command.History
import FactoryProxy.Proofs.Settings.Expansion

/-!
Contract: a run that finds the factories up to date and a forced run agree.

A run that finds the factories up to date has the settings of the last run that has
generated, and the sources have the contents they had, so that run could be made again over
its own files. What it leaves out are the parameters, which stand in the manifest: a forced
run writes those of its own.

Owns: the last run made again while its files remain, the agreement of the two runs, and
the parameters in which they differ.
-/

namespace FactoryProxy.Command

open FileSystem (LeadsAlike WellFormed)
open Generation (WrittenApart)
open Sequencing

variable {messages : ByteArray → Prop} {directory : Path} {files before after : FileSystem}
  {written : List Path} {source : Source} {parameters : Settings.Parameters}
  {settings : ResolvedSettings} {report : Generation.Report}

/-! ## The two runs -/

/-- A run whose output says so has found the factories up to date, and changes nothing. -/
theorem isUpToDate_of_upToDate
    (settled : settingsOf source files = (.ok (parameters, settings), files))
    (ran : runGenerate source false files = (.ok (upToDate settings), after)) :
    isUpToDate settings files = (.ok true, files) ∧ after = files := by
  rcases (unforced_eq_ok settled).mp ran with ⟨current, _, unchanged⟩ | ⟨_, report, _, isOutput⟩
  · exact ⟨current, unchanged⟩
  · exact absurd isOutput.symm (generated_ne_upToDate settings report)

/-- What a run has compared is among the messages. -/
theorem tellsApart_compared {middle : FileSystem} {manifest : Path} {content : ByteArray}
    {artifacts : List Artifact} {sources : List Path} (distinct : Digest.TellsApart messages)
    (wroteManifest : FileSystem.write manifest content middle = (.ok (), after))
    (regular : Regular messages settings after
      (Generation.writtenPaths manifest settings.proxyDirectory artifacts) sources)
    (sourcesDigested : ∀ path ∈ sources, ∀ content, files.read path = .ok content →
      messages content) :
    Digest.TellsApart (Generation.Compared settings settings middle files sources) := by
  obtain ⟨manifestKey, isManifest, keeps⟩ := FileSystem.entryAt_write wroteManifest
  have areMessages : ∀ message,
      Generation.Compared settings settings middle files sources message → messages message := by
    intro message compared
    cases compared with
    | settings => exact regular.settingsDigested
    | laterSettings => exact regular.settingsDigested
    | @content path message member isRead =>
        obtain ⟨key, found⟩ := FileSystem.read_eq_ok_iff.mp isRead
        have stays := keeps path key message found
        have different : key ≠ manifestKey := by
          rintro rfl
          exact regular.apart manifest List.mem_cons_self path member
            (FileSystem.sameFile_of_key isManifest stays)
        rw [if_neg different] at stays
        exact regular.sourcesDigested path member message
          (FileSystem.read_eq_ok_iff.mpr ⟨key, stays⟩)
    | laterContent member isRead => exact sourcesDigested _ member _ isRead
  intro left right isLeft isRight same
  exact distinct left right (areMessages left isLeft) (areMessages right isRight) same

/-- The manifest that a run has saved is the one that is loaded while the run remains. -/
theorem Remains.loads {lastParameters : Settings.Parameters} {lastSettings : ResolvedSettings}
    {saved : Container} {middle : FileSystem}
    (remains : Remains messages directory lastParameters lastSettings before after files written)
    (wroteManifest : FileSystem.write (manifestPath lastSettings) saved.manifest.toUTF8 middle =
      (.ok (), after)) :
    Container.load files (manifestIn directory) = .ok (some saved) := by
  obtain ⟨key, isManifest, _⟩ := FileSystem.entryAt_write wroteManifest
  have isOurs := (remains.sameManifest _ _).mp isManifest
  exact Container.load_of_entryAt ((remains.alike _ remains.manifest_mem _ _).mp isOurs)

/-- Up to date are factories of the loaded manifest if it is good. -/
theorem isFresh_of_isUpToDate {saved : Container}
    (loaded : Container.load files (manifestPath settings) = .ok (some saved))
    (current : isUpToDate settings files = (.ok true, files)) :
    Generation.isFresh files settings saved = .ok true := by
  obtain ⟨_, found, isLoaded, answers⟩ := isUpToDate_eq_ok.mp current
  obtain rfl := Except.ok.inj (loaded.symm.trans isLoaded)
  exact answers

/-- A run that remains while its factories are up to date is made again over its own files,
whatever the parameters are, and only they may change the manifest. -/
theorem Remains.again {lastParameters : Settings.Parameters} {lastSettings : ResolvedSettings}
    (remains : Remains messages settings.proxyDirectory lastParameters lastSettings before after
      files written)
    (distinct : Digest.TellsApart messages) (wellFormed : WellFormed files)
    (regular : Regular messages settings files written (scannedBy settings files))
    (current : isUpToDate settings files = (.ok true, files)) :
    ∃ (key : FileKey) (previous : Container) (report : Generation.Report),
      files.entryAt (manifestPath settings) = .ok (key, .file previous.manifest.toUTF8) ∧
      ∀ parameters, generateAll parameters settings files =
        (.ok report,
          files.put key (.file (previous.replaceParameters parameters).manifest.toUTF8)) := by
  obtain ⟨report, generates⟩ := remains.generates
  obtain ⟨described, middle, ran, wroteManifest⟩ := generateAll_eq_ok.mp generates
  obtain ⟨made, wrote, isDescribed⟩ := Generation.generate_eq_ok ran
  obtain ⟨opened, artifacts, writes⟩ := Generation.writeArtifacts_eq_ok.mp wrote
  obtain ⟨rfl, isSources⟩ := Generation.planned_eq writes.opens writes.plans
  have madeOf : described = Generation.describedBy lastSettings made := by
    rw [Generation.describe_empty] at isDescribed
    exact (Prod.mk.inj isDescribed).1.symm
  have fresh := isFresh_of_isUpToDate (remains.loads wroteManifest) current
  obtain ⟨sameFingerprint, scan, isFound, good⟩ := Generation.isFresh_eq_true_iff.mp fresh
  rw [madeOf] at sameFingerprint good
  obtain rfl := writes.settings_eq sameFingerprint
    (distinct _ _ remains.regular.settingsDigested regular.settingsDigested)
  obtain rfl := writes.scan_eq remains.wellFormed wellFormed isFound good
  have regularRun := remains.regular
  rw [← isSources] at regularRun
  rw [scannedBy_of_find isFound] at regular
  have isListed : ∀ path ∈ writtenBy lastSettings before, path ∈ written :=
    fun _ member => remains.mem_of_mem_writtenBy member
  obtain ⟨key, rewritten, isManifest, again, writesManifest⟩ := writes.again wroteManifest
    regularRun.apart (fun path member => regular.apart path (isListed path member))
    (fun path member => remains.alike path (isListed path member))
    (tellsApart_compared distinct wroteManifest regularRun regular.sourcesDigested) isFound good
  refine ⟨key, described.replaceParameters lastParameters, report, ?_, ?_⟩
  · exact (remains.alike _ (isListed _ List.mem_cons_self) _ _).mp isManifest
  · intro parameters
    refine generateAll_eq_ok.mpr ⟨described, rewritten, ?_, writesManifest _⟩
    rw [Generation.generate_of_written ∅ (Generation.writeArtifacts_eq_ok.mpr ⟨_, _, again⟩),
      isDescribed]

/-- After an intact history factories that are up to date are generated again over their
own files. -/
theorem generates_again (distinct : Digest.TellsApart messages)
    (history : History messages settings.proxyDirectory files (.intact written))
    (wellFormed : WellFormed files)
    (regular : Regular messages settings files written (scannedBy settings files))
    (current : isUpToDate settings files = (.ok true, files)) :
    ∃ (key : FileKey) (previous : Container) (report : Generation.Report),
      files.entryAt (manifestPath settings) = .ok (key, .file previous.manifest.toUTF8) ∧
      ∀ parameters, generateAll parameters settings files =
        (.ok report,
          files.put key (.file (previous.replaceParameters parameters).manifest.toUTF8)) := by
  rcases accounted_of_history history with
    ⟨_, noManifest⟩ | ⟨lastParameters, lastSettings, before, last, remains⟩
  · obtain ⟨_, found, isLoaded, answers⟩ := isUpToDate_eq_ok.mp current
    cases found with
    | none => cases answers
    | some previous =>
        obtain ⟨key, entry, isThere⟩ := Container.entryAt_of_load isLoaded
        exact absurd isThere (noManifest key entry)
  · exact remains.again distinct wellFormed regular current

/-- Whenever a run finds the factories up to date after an intact history, a forced run
succeeds, and it replaces nothing but the parameters in the manifest. So it leaves all files
as they are exactly if its parameters are those that the manifest has. -/
theorem skipped_run_agrees_with_forced (distinct : Digest.TellsApart messages)
    (history : History messages settings.proxyDirectory files (.intact written))
    (wellFormed : WellFormed files)
    (settled : settingsOf source files = (.ok (parameters, settings), files))
    (regular : Regular messages settings files written (scannedBy settings files))
    (skipped : runGenerate source false files = (.ok (upToDate settings), after)) :
    after = files ∧
      ∃ (key : FileKey) (previous : Container) (report : Generation.Report)
        (forced : FileSystem),
        files.entryAt (manifestPath settings) = .ok (key, .file previous.manifest.toUTF8) ∧
        runGenerate source true files = (.ok (generated settings report), forced) ∧
        forced = files.put key (.file (previous.replaceParameters parameters).manifest.toUTF8) ∧
        (forced = files ↔ previous.parameters = parameters) := by
  obtain ⟨current, unchanged⟩ := isUpToDate_of_upToDate settled skipped
  obtain ⟨key, previous, report, isManifest, generates⟩ :=
    generates_again distinct history wellFormed regular current
  refine ⟨unchanged, key, previous, report, _, isManifest,
    (forced_eq_ok settled).mpr ⟨report, generates parameters, rfl⟩, rfl, ?_⟩
  rw [FileSystem.put_eq_self_iff isManifest]
  constructor
  · intro sameManifest
    exact (congrArg Container.parameters
      (Container.manifest_toUTF8_injective sameManifest)).symm
  · rintro rfl
    rfl

/-! ## A project -/

/-- A project of one class below the target `T`. -/
def project : FileSystem where
  entries := .ofList [
    (["autofactory.toml"], .file ("scan_for = \"T\"\nsource_dirs = \"src\"\n" ++
      "proxy_namespace = \"G\"\nproxy_dir = \"p\"\n").toUTF8),
    (["src"], .directory),
    (["src", "a.php"], .file "<?php class A extends T{}".toUTF8)]
  current := []

def projectSettings : ResolvedSettings := ⟨["T"], [⟨"/src"⟩], "G", ⟨"/p"⟩, []⟩

def loadedProject : LoadedSettings :=
  ⟨⟨"/autofactory.toml"⟩, ⟨some (.one "T"), some (.one "src"), "G", "p", [], ∅⟩⟩

/-- The options that give the parameter `k` a value. -/
def withValue (value : String) : Source :=
  ⟨none, [("k", value)], ⟨[], []⟩⟩

def projectParameters (value : String) : Settings.Parameters :=
  loadedProject.parameters [("k", value)]

def projectReport : Generation.Report :=
  ⟨[⟨"A___GeneratedFactoryInterface", "G\\A___GeneratedFactoryInterface", some "A",
    ⟨"/p/A___GeneratedFactoryInterface.php"⟩⟩], 1, 1, 1⟩

/-- The project behind a run with the value `1`. -/
def generatedProject : FileSystem :=
  (generateAll (projectParameters "1") projectSettings project).2

/-- The project after that, with a file added outside of the proxy directory. -/
def editedProject : FileSystem :=
  generatedProject.put ["notes.txt"] (.file "notes".toUTF8)

/-- What runs on the project digest. -/
def projectMessages : List ByteArray :=
  [projectSettings.fingerprinted, "<?php class A extends T{}".toUTF8]

theorem settingsOf_project (found : LoadedSettings.find files none = .ok loadedProject)
    (value : String) :
    settingsOf (withValue value) files =
      (.ok (projectParameters value, projectSettings), files) := by
  refine settingsOf_eq_ok.mpr ⟨rfl, loadedProject, found, rfl, ?_⟩
  have proxyDirectory : Settings.expand (projectParameters value) "p" = .ok "p" :=
    Settings.expand_plain _ (by decide)
  have sourceDirectory : Settings.expand (projectParameters value) "src" = .ok "src" :=
    Settings.expand_plain _ (by decide)
  have directories : ["src"].mapM (fun directory =>
      (Settings.expand (projectParameters value) directory).map (Settings.anchor ⟨"/"⟩)) =
        .ok [⟨"/src"⟩] := by
    rw [List.mapM_cons, sourceDirectory]
    rfl
  have base : loadedProject.baseDirectory = ⟨"/"⟩ := by decide +kernel
  unfold LoadedSettings.resolve Settings.resolve
  rw [base]
  refine bind_eq_ok.mpr ⟨"p", proxyDirectory, bind_eq_ok.mpr ⟨["src"], rfl, ?_⟩⟩
  exact bind_eq_ok.mpr ⟨[⟨"/src"⟩], directories, rfl⟩

/-- The paths that the run on the project has written. -/
def projectWritten : List Path :=
  manifestIn projectSettings.proxyDirectory :: writtenBy projectSettings project

set_option maxRecDepth 100000 in
theorem checks_project : WellFormed project ∧
    LoadedSettings.find project none = .ok loadedProject ∧
    (project.entryAt (manifestIn projectSettings.proxyDirectory)).isOk = false := by
  decide +kernel

set_option maxRecDepth 100000 in
theorem checks_generatedProject :
    ((Generation.generate projectSettings ∅ project).2.writingKey (manifestPath projectSettings) =
        .ok ["p", "container.json"] ∧
      (Generation.generate projectSettings ∅ project).2.lookup ["p", "container.json"] = none) ∧
    (∀ path ∈ projectWritten, generatedProject.isFile path = true) ∧
    generatedProject.lookup ["notes.txt"] = none ∧
    WrittenApart generatedProject (writtenBy projectSettings project)
      (Generation.plannedSources projectSettings project) ∧
    ∀ path ∈ Generation.plannedSources projectSettings project,
      generatedProject.read path ∈ projectMessages.map Except.ok := by
  decide +kernel

set_option maxRecDepth 100000 in
theorem checks_editedProject : WellFormed editedProject ∧
    LoadedSettings.find editedProject none = .ok loadedProject ∧
    SourceFiles.find editedProject projectSettings.sourceDirectories projectSettings.exclude =
      .ok (Generation.plannedSources projectSettings project) ∧
    WrittenApart editedProject projectWritten (scannedBy projectSettings editedProject) ∧
    ∀ path ∈ scannedBy projectSettings editedProject,
      editedProject.read path ∈ projectMessages.map Except.ok := by
  decide +kernel

set_option maxRecDepth 100000 in
theorem generates_project :
    generateAll (projectParameters "1") projectSettings project =
      (.ok projectReport, generatedProject) :=
  Prod.ext (by decide +kernel) rfl

theorem entryAt_editedProject {path : Path} {key : FileKey} {content : ByteArray}
    (found : generatedProject.entryAt path = .ok (key, .file content)) :
    editedProject.entryAt path = .ok (key, .file content) :=
  FileSystem.entryAt_put_free (List.cons_ne_nil _ _) checks_generatedProject.2.2.1 _ found

theorem tellsApart_projectMessages : Digest.TellsApart (· ∈ projectMessages) := by
  have distinct : (projectMessages.map Digest.ofBytes).Nodup := by decide +kernel
  intro left right isLeft isRight same
  exact List.inj_on_of_nodup_map distinct isLeft isRight same

/-- The run on the project and the edit behind it are a history. -/
theorem history_editedProject :
    History (· ∈ projectMessages) projectSettings.proxyDirectory editedProject
      (.intact projectWritten) := by
  obtain ⟨wellFormed, found, noManifest⟩ := checks_project
  obtain ⟨_, areFiles, free, regular⟩ := checks_generatedProject
  have isListed : projectSettings.fingerprinted ∈ projectMessages := List.mem_cons_self
  have settled := settingsOf_project found "1"
  have ran : runGenerate (withValue "1") true project =
      (.ok (generated projectSettings projectReport), generatedProject) :=
    (forced_eq_ok settled).mpr ⟨_, generates_project, rfl⟩
  refine .edit (.run (.start ?_) wellFormed settled ran (fun _ _ => Iff.rfl)
    (regular_of_listed isListed regular)) ?_
  · intro key entry isThere
    rw [isThere] at noManifest
    cases noManifest
  · intro path member
    exact FileSystem.leadsAlike_put_free (List.cons_ne_nil _ _) free _ (areFiles path member)

/-- The run on the project has changed no file that was there before its manifest. -/
theorem read_editedProject {described : Container} {middle : FileSystem} {path : Path}
    {content saved : ByteArray}
    (ran : Generation.generate projectSettings ∅ project = ((described, .ok report), middle))
    (wroteManifest : FileSystem.write (manifestPath projectSettings) saved middle =
      (.ok (), generatedProject))
    (isRead : middle.read path = .ok content) : editedProject.read path = .ok content := by
  obtain ⟨⟨isKey, isNew⟩, _⟩ := checks_generatedProject
  rw [ran] at isKey isNew
  obtain ⟨key, found⟩ := FileSystem.read_eq_ok_iff.mp isRead
  have behind := FileSystem.entryAt_put_free (List.cons_ne_nil _ _) isNew (.file saved) found
  have isPut := (FileSystem.write_of_writingKey isKey saved).symm.trans wroteManifest
  rw [(Prod.mk.inj isPut).2] at behind
  exact FileSystem.read_eq_ok_iff.mpr ⟨key, entryAt_editedProject behind⟩

theorem isUpToDate_editedProject :
    isUpToDate projectSettings editedProject = (.ok true, editedProject) := by
  obtain ⟨_, _, isFound, _⟩ := checks_editedProject
  obtain ⟨described, middle, ran, wroteManifest⟩ := generateAll_eq_ok.mp generates_project
  obtain ⟨key, isManifest, _⟩ := FileSystem.entryAt_write wroteManifest
  exact isUpToDate_of_kept ran (entryAt_editedProject isManifest) isFound
    (fun path content isRead => read_editedProject ran wroteManifest isRead)

/-- Whatever the parameters are, the project is up to date behind its run. -/
theorem skips_editedProject (value : String) :
    runGenerate (withValue value) false editedProject =
      (.ok (upToDate projectSettings), editedProject) :=
  (unforced_eq_ok (settingsOf_project checks_editedProject.2.1 value)).mpr
    (.inl ⟨isUpToDate_editedProject, rfl, rfl⟩)

/-- The manifest is still the one of the run on the project. -/
theorem manifest_editedProject : ∃ container : Container,
    container.parameters = projectParameters "1" ∧
      editedProject.read (manifestPath projectSettings) = .ok container.manifest.toUTF8 := by
  obtain ⟨saved, isSaved, isRead⟩ := read_manifest_of_generateAll generates_project
  obtain ⟨key, found⟩ := FileSystem.read_eq_ok_iff.mp isRead
  exact ⟨saved, isSaved, FileSystem.read_eq_ok_iff.mpr ⟨key, entryAt_editedProject found⟩⟩

theorem regular_editedProject : Regular (· ∈ projectMessages) projectSettings editedProject
    projectWritten (scannedBy projectSettings editedProject) :=
  regular_of_listed List.mem_cons_self checks_editedProject.2.2.2

/-- A forced run with the same value leaves the project as it is. -/
theorem edited_project_agrees_with_forced : ∃ report,
    runGenerate (withValue "1") true editedProject =
      (.ok (generated projectSettings report), editedProject) := by
  obtain ⟨wellFormed, found, _⟩ := checks_editedProject
  obtain ⟨_, key, previous, report, forced, isManifest, ran, _, same⟩ :=
    skipped_run_agrees_with_forced tellsApart_projectMessages history_editedProject wellFormed
      (settingsOf_project found "1") regular_editedProject (skips_editedProject "1")
  have sameParameters : previous.parameters = projectParameters "1" := by
    obtain ⟨saved, isSaved, isRead⟩ := manifest_editedProject
    rw [FileSystem.read_eq_ok_iff.mpr ⟨key, isManifest⟩] at isRead
    rw [Container.manifest_toUTF8_injective (Except.ok.inj isRead), isSaved]
  rw [same.mpr sameParameters] at ran
  exact ⟨report, ran⟩

/-- With another value the project is up to date as well, although a forced run writes
another manifest. -/
theorem changed_parameter_found_up_to_date :
    ¬ ∀ (messages : ByteArray → Prop) (settings : ResolvedSettings) (files forced : FileSystem)
        (written : List Path) (source : Source) (parameters : Settings.Parameters)
        (report : Generation.Report),
      Digest.TellsApart messages →
      History messages settings.proxyDirectory files (.intact written) →
      WellFormed files →
      settingsOf source files = (.ok (parameters, settings), files) →
      Regular messages settings files written (scannedBy settings files) →
      runGenerate source false files = (.ok (upToDate settings), files) →
      runGenerate source true files = (.ok (generated settings report), forced) →
        ∀ path ∈ writtenBy settings files, forced.read path = files.read path := by
  intro always
  obtain ⟨wellFormed, found, _⟩ := checks_editedProject
  have settled := settingsOf_project found "2"
  obtain ⟨key, previous, report, isManifest, generates⟩ := generates_again
    tellsApart_projectMessages history_editedProject wellFormed regular_editedProject
    isUpToDate_editedProject
  have same := always _ _ _ _ _ _ _ _ tellsApart_projectMessages history_editedProject wellFormed
    settled regular_editedProject (skips_editedProject "2")
    ((forced_eq_ok settled).mpr ⟨_, generates _, rfl⟩) (manifestPath projectSettings)
    List.mem_cons_self
  obtain ⟨saved, isSaved, isRead⟩ := manifest_editedProject
  obtain ⟨forced, isForced, forcedRead⟩ := read_manifest_of_generateAll (generates _)
  rw [isRead, forcedRead] at same
  rw [Container.manifest_toUTF8_injective (Except.ok.inj same), isSaved] at isForced
  have sameValue := congrArg (fun parameters => parameters.get? "k") isForced
  exact absurd sameValue (by decide +kernel)

end FactoryProxy.Command
