import FactoryProxy.Command.Run
import FactoryProxy.Proofs.Container.Manifest
import FactoryProxy.Proofs.Generation.Repeating

/-!
Contract: what the command for generation does with the files.

A run reads its settings, may find the factories up to date, and generates otherwise. The
parameters of a run go into the manifest and count for nothing else behind the settings.

Owns: the outputs of a run and what they tell, the container of a run with parameters, and
the steps of a run.
-/

namespace FactoryProxy

open Sequencing

/-! ## Parameters of a container -/

namespace Container

/-- The container with other parameters. -/
def replaceParameters (container : Container) (parameters : OrderedMap String String) : Container :=
  { container with parameters := parameters }

theorem addFactories_replaceParameters (container : Container)
    (parameters : OrderedMap String String) (slot : Nat) (factories : List (String × String)) :
    (container.replaceParameters parameters).addFactories slot factories =
      ((container.addFactories slot factories).1.replaceParameters parameters,
        (container.addFactories slot factories).2) := by
  induction factories generalizing container slot with
  | nil => rfl
  | cons head tail inductionHypothesis =>
      obtain ⟨interfaceName, className⟩ := head
      unfold addFactories addDefinition
      by_cases taken : container.hasDefinition (definitionName slot) = true
      · have takenToo : (container.replaceParameters parameters).hasDefinition
            (definitionName slot) = true := taken
        rw [if_pos taken, if_pos takenToo]
      · have freeToo : ¬ (container.replaceParameters parameters).hasDefinition
            (definitionName slot) = true := taken
        rw [if_neg taken, if_neg freeToo]
        exact inductionHypothesis { container with
          definitions := container.definitions ++
            [(definitionName slot, factoryDefinition interfaceName className)] } (slot + 1)

theorem prependInitializer_replaceParameters (container : Container)
    (parameters : OrderedMap String String) (initializer : Initializer) :
    (container.replaceParameters parameters).prependInitializer initializer =
      (container.prependInitializer initializer).replaceParameters parameters := by
  unfold prependInitializer
  by_cases present : container.initializers.any (fun other => other.same initializer) = true
  · have presentToo : (container.replaceParameters parameters).initializers.any
        (fun other => other.same initializer) = true := present
    rw [if_pos present, if_pos presentToo]
  · have newToo : ¬ (container.replaceParameters parameters).initializers.any
        (fun other => other.same initializer) = true := present
    rw [if_neg present, if_neg newToo]
    rfl

end Container

namespace Generation

variable {settings : ResolvedSettings} {files : FileSystem}

theorem describe_replaceParameters (settings : ResolvedSettings) (written : Written)
    (container : Container) (parameters : OrderedMap String String) :
    describe settings written (container.replaceParameters parameters) =
      ((describe settings written container).1.replaceParameters parameters,
        (describe settings written container).2) := by
  have emits : (container.replaceParameters parameters).emit written.persisted =
      ((container.emit written.persisted).1.replaceParameters parameters,
        (container.emit written.persisted).2) :=
    Container.addFactories_replaceParameters container parameters 0 _
  unfold describe
  rw [emits]
  rcases container.emit written.persisted with ⟨emitted, outcome⟩
  cases outcome with
  | error failure => rfl
  | ok definitions =>
      exact Prod.ext (Container.prependInitializer_replaceParameters
        (emitted.addDependencies written.dependencies) parameters _) rfl

/-- A run carries the parameters of its container along. -/
theorem generate_replaceParameters (settings : ResolvedSettings) (container : Container)
    (parameters : OrderedMap String String) (files : FileSystem) :
    generate settings (container.replaceParameters parameters) files =
      (((generate settings container files).1.1.replaceParameters parameters,
        (generate settings container files).1.2), (generate settings container files).2) := by
  unfold generate
  split
  · rw [describe_replaceParameters]
  · rfl

end Generation

namespace Command

open FileSystem (Action)

variable {files after : FileSystem} {source : Source} {force : Bool} {output : Output}
  {parameters : Settings.Parameters} {settings : ResolvedSettings} {report : Generation.Report}

/-! ## Outputs -/

/-- The output of a run that generates nothing. -/
def upToDate (settings : ResolvedSettings) : Output :=
  .success ["Factories in " ++ settings.proxyDirectory.text ++ " are up to date"]

/-- The output of a run that generates. -/
def generated (settings : ResolvedSettings) (report : Generation.Report) : Output :=
  .success (report.factories.map factoryLine ++ [summaryLine settings report])

/-! ## Steps -/

theorem check_eq_ok {α : Type} {context : Option String} {result : Except Failure α} {value : α} :
    Task.check context result files = (.ok value, after) ↔ result = .ok value ∧ after = files := by
  unfold Task.check
  rw [run_inspect_eq_ok, mapError_eq_ok]

theorem look_eq_ok {α : Type} {context : Option String}
    {question : FileSystem → Except Failure α} {value : α} :
    Task.look context question files = (.ok value, after) ↔
      question files = .ok value ∧ after = files := by
  unfold Task.look
  rw [run_inspect_eq_ok, mapError_eq_ok]

/-- Settings come from a file, and nothing is changed for them. -/
theorem settingsOf_eq_ok :
    settingsOf source files = (.ok (parameters, settings), after) ↔ after = files ∧
      ∃ loaded, LoadedSettings.find files source.explicit = .ok loaded ∧
        parameters = loaded.parameters source.overrides ∧
        loaded.resolve parameters [source.contribution] = .ok settings := by
  unfold settingsOf
  constructor
  · intro settled
    obtain ⟨loaded, middle, isLoaded, resolving⟩ := run_bind_eq_ok.mp settled
    obtain ⟨resolved, last, isResolved, finished⟩ := run_bind_eq_ok.mp resolving
    obtain ⟨found, rfl⟩ := look_eq_ok.mp isLoaded
    obtain ⟨resolves, rfl⟩ := check_eq_ok.mp isResolved
    cases finished
    exact ⟨rfl, loaded, found, rfl, resolves⟩
  · rintro ⟨rfl, loaded, found, rfl, resolves⟩
    refine run_bind_eq_ok.mpr ⟨loaded, after, look_eq_ok.mpr ⟨found, rfl⟩, ?_⟩
    exact run_bind_eq_ok.mpr ⟨settings, after, check_eq_ok.mpr ⟨resolves, rfl⟩, rfl⟩

/-- A manifest is good or not, or there is none. -/
theorem isUpToDate_eq_ok {answer : Bool} :
    isUpToDate settings files = (.ok answer, after) ↔ after = files ∧
      ∃ found, Container.load files (manifestPath settings) = .ok found ∧
        match found with
        | none => answer = false
        | some previous => Generation.isFresh files settings previous = .ok answer := by
  unfold isUpToDate
  rw [run_bind_eq_ok]
  constructor
  · rintro ⟨found, middle, isLoaded, asking⟩
    obtain ⟨loaded, rfl⟩ := look_eq_ok.mp isLoaded
    cases found with
    | none =>
        cases asking
        exact ⟨rfl, none, loaded, rfl⟩
    | some previous =>
        obtain ⟨fresh, rfl⟩ := look_eq_ok.mp asking
        exact ⟨rfl, some previous, loaded, fresh⟩
  · rintro ⟨rfl, found, loaded, answers⟩
    refine ⟨found, after, look_eq_ok.mpr ⟨loaded, rfl⟩, ?_⟩
    cases found with
    | none =>
        rw [answers]
        rfl
    | some previous => exact look_eq_ok.mpr ⟨answers, rfl⟩

/-- A run generates for an empty container and saves that with the parameters. -/
theorem generateAll_eq_ok :
    generateAll parameters settings files = (.ok report, after) ↔
      ∃ described middle,
        Generation.generate settings ∅ files = ((described, .ok report), middle) ∧
        FileSystem.write (manifestPath settings)
          (described.replaceParameters parameters).manifest.toUTF8 middle = (.ok (), after) := by
  have generates : ((Generation.generate settings (Container.withParameters parameters) :
      StateM FileSystem (Container × Except Failure Generation.Report)) :
        Task (Container × Except Failure Generation.Report)) files =
      (.ok ((Generation.generate settings ∅ files).1.1.replaceParameters parameters,
        (Generation.generate settings ∅ files).1.2), (Generation.generate settings ∅ files).2) := by
    show (Except.ok (Generation.generate settings ((∅ : Container).replaceParameters parameters)
      files).1, (Generation.generate settings ((∅ : Container).replaceParameters parameters)
      files).2) = _
    rw [Generation.generate_replaceParameters]
  unfold generateAll
  rw [run_bind_ok generates]
  generalize Generation.generate settings ∅ files = ran
  obtain ⟨⟨described, result⟩, middle⟩ := ran
  constructor
  · intro saving
    obtain ⟨checked, behind, isChecked, writing⟩ := run_bind_eq_ok.mp saving
    obtain ⟨isReport, rfl⟩ := check_eq_ok.mp isChecked
    obtain ⟨_, last, saved, finished⟩ := run_bind_eq_ok.mp writing
    cases finished
    rw [show result = .ok report from isReport]
    exact ⟨described, _, rfl, run_restate_eq_ok.mp (run_restate_eq_ok.mp saved)⟩
  · rintro ⟨other, last, same, wrote⟩
    obtain ⟨sameResult, rfl⟩ := Prod.mk.inj same
    obtain ⟨rfl, rfl⟩ := Prod.mk.inj sameResult
    refine run_bind_eq_ok.mpr ⟨report, middle, check_eq_ok.mpr ⟨rfl, rfl⟩, ?_⟩
    refine run_bind_eq_ok.mpr ⟨(), after, ?_, rfl⟩
    exact run_restate_eq_ok.mpr (run_restate_eq_ok.mpr wrote)

/-- A run that generates leaves a manifest with its parameters. -/
theorem read_manifest_of_generateAll
    (generates : generateAll parameters settings files = (.ok report, after)) :
    ∃ container : Container, container.parameters = parameters ∧
      after.read (manifestPath settings) = .ok container.manifest.toUTF8 := by
  obtain ⟨described, middle, _, wroteManifest⟩ := generateAll_eq_ok.mp generates
  obtain ⟨key, isManifest, _⟩ := FileSystem.entryAt_write wroteManifest
  exact ⟨described.replaceParameters parameters, rfl,
    FileSystem.read_eq_ok_iff.mpr ⟨key, isManifest⟩⟩

/-- The factories of a run are up to date as long as the scan finds the sources of the run,
its manifest is there and all files have the contents from before that was written. The
parameters in the manifest do not count. -/
theorem isUpToDate_of_kept {described : Container} {middle later : FileSystem} {key : FileKey}
    (ran : Generation.generate settings ∅ files = ((described, .ok report), middle))
    (isManifest : later.entryAt (manifestPath settings) =
      .ok (key, .file (described.replaceParameters parameters).manifest.toUTF8))
    (isFound : SourceFiles.find later settings.sourceDirectories settings.exclude =
      .ok (Generation.plannedSources settings files))
    (kept : ∀ path content, middle.read path = .ok content → later.read path = .ok content) :
    isUpToDate settings later = (.ok true, later) := by
  have good := Generation.isFresh_of_kept ran isFound kept
  have fresh : Generation.isFresh later settings (described.replaceParameters parameters) =
      .ok true :=
    good
  exact isUpToDate_eq_ok.mpr ⟨rfl, _, Container.load_of_entryAt isManifest, fresh⟩

/-- What a run does once it knows whether the factories are up to date. -/
def answer (parameters : Settings.Parameters) (settings : ResolvedSettings) (current : Bool) :
    Task Output :=
  if current then return upToDate settings
  else do
    let report ← generateAll parameters settings
    return generated settings report

theorem answer_eq_ok {current : Bool} :
    answer parameters settings current files = (.ok output, after) ↔
      current = true ∧ output = upToDate settings ∧ after = files ∨
        current = false ∧ ∃ report, generateAll parameters settings files = (.ok report, after) ∧
          output = generated settings report := by
  unfold answer
  cases current with
  | true =>
      constructor
      · intro finished
        cases finished
        exact .inl ⟨rfl, rfl, rfl⟩
      · rintro (⟨_, rfl, rfl⟩ | ⟨isFalse, _⟩)
        · rfl
        · cases isFalse
  | false =>
      constructor
      · intro ran
        obtain ⟨report, last, generates, finished⟩ := run_bind_eq_ok.mp ran
        cases finished
        exact .inr ⟨rfl, report, generates, rfl⟩
      · rintro (⟨isTrue, _⟩ | ⟨_, report, generates, rfl⟩)
        · cases isTrue
        · exact run_bind_eq_ok.mpr ⟨report, after, generates, rfl⟩

theorem runGenerate_forced (source : Source) :
    runGenerate source true = (do
      let settled ← settingsOf source
      answer settled.1 settled.2 false) :=
  rfl

theorem runGenerate_unforced (source : Source) :
    runGenerate source false = (do
      let settled ← settingsOf source
      let current ← isUpToDate settled.2
      answer settled.1 settled.2 current) :=
  rfl

section Settled

variable (settled : settingsOf source files = (.ok (parameters, settings), files))

include settled

/-- A forced run that has settled on its settings generates. -/
theorem forced_eq_ok : runGenerate source true files = (.ok output, after) ↔
    ∃ report, generateAll parameters settings files = (.ok report, after) ∧
      output = generated settings report := by
  rw [runGenerate_forced, run_bind_ok settled, answer_eq_ok]
  constructor
  · rintro (⟨isTrue, _⟩ | ⟨_, generates⟩)
    · cases isTrue
    · exact generates
  · intro generates
    exact .inr ⟨rfl, generates⟩

/-- A run without force that has settled on its settings finds the factories up to date or
generates. -/
theorem unforced_eq_ok : runGenerate source false files = (.ok output, after) ↔
    isUpToDate settings files = (.ok true, files) ∧ output = upToDate settings ∧ after = files ∨
      isUpToDate settings files = (.ok false, files) ∧
        ∃ report, generateAll parameters settings files = (.ok report, after) ∧
          output = generated settings report := by
  rw [runGenerate_unforced, run_bind_ok settled, run_bind_eq_ok]
  constructor
  · rintro ⟨current, middle, asked, answers⟩
    obtain ⟨rfl, _⟩ := isUpToDate_eq_ok.mp asked
    rcases answer_eq_ok.mp answers with ⟨rfl, skipped⟩ | ⟨rfl, generates⟩
    · exact .inl ⟨asked, skipped⟩
    · exact .inr ⟨asked, generates⟩
  · rintro (⟨asked, skipped⟩ | ⟨asked, generates⟩)
    · exact ⟨true, files, asked, answer_eq_ok.mpr (.inl ⟨rfl, skipped⟩)⟩
    · exact ⟨false, files, asked, answer_eq_ok.mpr (.inr ⟨rfl, generates⟩)⟩

end Settled

/-! ## What an output tells -/

theorem stdout_concat (texts : List String) (last : String) :
    (Output.success (texts ++ [last])).stdout =
      (Output.success texts).stdout ++ last ++ "\n" := by
  unfold Output.success Output.lines
  dsimp only
  rw [List.map_append, Text.concat_append, String.append_assoc]
  rfl

theorem lastCharacter (before line last : String) {c : Char} (isLast : last.toList = [c]) :
    (before ++ (line ++ last) ++ "\n").toList.dropLast.getLast? = some c := by
  rw [String.toList_append, show "\n".toList = ['\n'] from rfl, List.dropLast_concat,
    String.toList_append, String.toList_append, isLast, ← List.append_assoc, List.getLast?_concat]

/-- The outputs of a run that generates and of one that does not are never the same. -/
theorem generated_ne_upToDate (settings : ResolvedSettings) (report : Generation.Report) :
    generated settings report ≠ upToDate settings := by
  intro same
  have generatedLast : (generated settings report).stdout.toList.dropLast.getLast? = some ')' := by
    unfold generated summaryLine
    rw [stdout_concat]
    exact lastCharacter _ _ ")" rfl
  have upToDateLast : (upToDate settings).stdout.toList.dropLast.getLast? = some 'e' := by
    have isLine : "Factories in " ++ settings.proxyDirectory.text ++ " are up to date" =
        "Factories in " ++ settings.proxyDirectory.text ++ " are up to dat" ++ "e" := by
      apply String.toList_inj.mp
      simp
    have isOutput : (upToDate settings).stdout =
        (Output.success []).stdout ++
          ("Factories in " ++ settings.proxyDirectory.text ++ " are up to date") ++ "\n" :=
      stdout_concat [] _
    rw [isOutput, isLine]
    exact lastCharacter _ _ "e" rfl
  rw [same, upToDateLast] at generatedLast
  exact absurd (Option.some.inj generatedLast) (by decide)

end Command

end FactoryProxy
