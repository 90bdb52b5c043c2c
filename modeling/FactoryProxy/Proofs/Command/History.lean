import FactoryProxy.Proofs.Command.Generating

/-!
Contract: what the files of a proxy directory come from.

They come from runs, with edits of anything else in between. As long as nothing else
changes the files that the last run has written, that run remains: its files are there as
it has left them, together with a manifest that it has saved.

A run that fails may have overwritten artifacts of the last one. Nothing is known about the
files from then on until a run generates again.

Owns: the histories of a proxy directory, and what an intact history says about the files.
-/

namespace FactoryProxy.Command

open FileSystem (LeadsAlike WellFormed)
open Generation (WrittenApart)

variable {messages : ByteArray → Prop} {directory : Path} {files after later : FileSystem}
  {written : List Path} {source : Source} {parameters : Settings.Parameters}
  {settings : ResolvedSettings} {report : Generation.Report}

/-! ## Histories -/

def manifestIn (directory : Path) : Path :=
  directory.child Container.manifestName

/-- The paths that a run writes. -/
def writtenBy (settings : ResolvedSettings) (files : FileSystem) : List Path :=
  Generation.writtenPaths (manifestPath settings) settings.proxyDirectory
    (Generation.plannedArtifacts settings files)

/-- The files that a scan finds, none if it fails. -/
def scannedBy (settings : ResolvedSettings) (files : FileSystem) : List Path :=
  match SourceFiles.find files settings.sourceDirectories settings.exclude with
  | .ok found => found
  | .error _ => []

theorem scannedBy_of_find {found : List Path}
    (isFound : SourceFiles.find files settings.sourceDirectories settings.exclude = .ok found) :
    scannedBy settings files = found := by
  unfold scannedBy
  rw [isFound]

/-- The sources are apart from the written files, and what is digested is among the
messages. -/
structure Regular (messages : ByteArray → Prop) (settings : ResolvedSettings)
    (files : FileSystem) (written sources : List Path) : Prop where
  apart : WrittenApart files written sources
  settingsDigested : messages settings.fingerprinted
  sourcesDigested : ∀ path ∈ sources, ∀ content, files.read path = .ok content → messages content

theorem regular_of_listed {listed : List ByteArray} {sources : List Path}
    (settingsListed : settings.fingerprinted ∈ listed)
    (checked : WrittenApart files written sources ∧
      ∀ path ∈ sources, files.read path ∈ listed.map Except.ok) :
    Regular (· ∈ listed) settings files written sources where
  apart := checked.1
  settingsDigested := settingsListed
  sourcesDigested := by
    intro path member content isRead
    have isListed := checked.2 path member
    rw [isRead] at isListed
    exact (List.mem_map_of_injective (fun _ _ => Except.ok.inj)).mp isListed

/-- What is known about the files of a proxy directory. -/
inductive Standing where
  /-- The paths are those that the last run that generated has written, and nothing has
  changed the files behind them since. -/
  | intact (written : List Path)
  | unknown

/-- The file systems that runs and edits lead to, from one without a manifest in the proxy
directory. A run that generates nothing is an edit, and so is one that fails, unless it has
overwritten what the last one had written. -/
inductive History (messages : ByteArray → Prop) (directory : Path) :
    FileSystem → Standing → Prop where
  | start {files : FileSystem}
      (noManifest : ∀ key entry, files.entryAt (manifestIn directory) ≠ .ok (key, entry)) :
      History messages directory files (.intact [manifestIn directory])
  | edit {files later : FileSystem} {written : List Path}
      (history : History messages directory files (.intact written))
      (untouched : ∀ path ∈ written, LeadsAlike files later path) :
      History messages directory later (.intact written)
  | loss {files later : FileSystem} {standing : Standing}
      (history : History messages directory files standing) :
      History messages directory later .unknown
  | run {files after : FileSystem} {standing : Standing} {source : Source} {force : Bool}
      {parameters : Settings.Parameters} {settings : ResolvedSettings}
      {report : Generation.Report} (history : History messages directory files standing)
      (wellFormed : WellFormed files)
      (settled : settingsOf source files = (.ok (parameters, settings), files))
      (ran : runGenerate source force files = (.ok (generated settings report), after))
      (sameManifest : ∀ key entry, after.entryAt (manifestPath settings) = .ok (key, entry) ↔
        after.entryAt (manifestIn directory) = .ok (key, entry))
      (regular : Regular messages settings after (writtenBy settings files)
        (Generation.plannedSources settings files)) :
      History messages directory after
        (.intact (manifestIn directory :: writtenBy settings files))

/-! ## What a history says -/

/-- The files that a run has written are still there. -/
structure Remains (messages : ByteArray → Prop) (directory : Path)
    (parameters : Settings.Parameters) (settings : ResolvedSettings)
    (before after files : FileSystem) (written : List Path) : Prop where
  wellFormed : WellFormed before
  generates : ∃ report, generateAll parameters settings before = (.ok report, after)
  sameManifest : ∀ key entry, after.entryAt (manifestPath settings) = .ok (key, entry) ↔
    after.entryAt (manifestIn directory) = .ok (key, entry)
  regular : Regular messages settings after (writtenBy settings before)
    (Generation.plannedSources settings before)
  isWritten : written = manifestIn directory :: writtenBy settings before
  alike : ∀ path ∈ written, LeadsAlike after files path

section Remains

variable {before : FileSystem}
  (remains : Remains messages directory parameters settings before after files written)

include remains

theorem Remains.manifest_mem : manifestIn directory ∈ written := by
  rw [remains.isWritten]
  exact List.mem_cons_self

theorem Remains.mem_of_mem_writtenBy {path : Path} (member : path ∈ writtenBy settings before) :
    path ∈ written := by
  rw [remains.isWritten]
  exact List.mem_cons_of_mem _ member

end Remains

/-- There is no manifest, or the last run remains. -/
def Accounted (messages : ByteArray → Prop) (directory : Path) (files : FileSystem) :
    Standing → Prop
  | .intact written =>
    manifestIn directory ∈ written ∧
        (∀ key entry, files.entryAt (manifestIn directory) ≠ .ok (key, entry)) ∨
      ∃ parameters settings before after,
        Remains messages directory parameters settings before after files written
  | .unknown => True

theorem accounted_of_untouched (accounted : Accounted messages directory files (.intact written))
    (untouched : ∀ path ∈ written, LeadsAlike files later path) :
    Accounted messages directory later (.intact written) := by
  rcases accounted with ⟨isListed, noManifest⟩ | ⟨parameters, settings, before, after, remains⟩
  · refine .inl ⟨isListed, fun key entry found => ?_⟩
    exact noManifest key entry ((untouched _ isListed key entry).mpr found)
  · refine .inr ⟨parameters, settings, before, after, { remains with alike := ?_ }⟩
    intro path member key entry
    exact (remains.alike path member key entry).trans (untouched path member key entry)

/-- A run whose output is that of a generating one has generated. -/
theorem generateAll_of_generated {force : Bool}
    (settled : settingsOf source files = (.ok (parameters, settings), files))
    (ran : runGenerate source force files = (.ok (generated settings report), after)) :
    ∃ report, generateAll parameters settings files = (.ok report, after) := by
  cases force with
  | true =>
      obtain ⟨report, generates, _⟩ := (forced_eq_ok settled).mp ran
      exact ⟨report, generates⟩
  | false =>
      rcases (unforced_eq_ok settled).mp ran with ⟨_, isOutput, _⟩ | ⟨_, report, generates, _⟩
      · exact absurd isOutput (generated_ne_upToDate settings _)
      · exact ⟨report, generates⟩

/-- Along every history the files are accounted for. -/
theorem accounted_of_history {standing : Standing}
    (history : History messages directory files standing) :
    Accounted messages directory files standing := by
  induction history with
  | start noManifest => exact .inl ⟨List.mem_singleton.mpr rfl, noManifest⟩
  | edit _ untouched inductionHypothesis =>
      exact accounted_of_untouched inductionHypothesis untouched
  | loss => trivial
  | run _ wellFormed settled ran sameManifest regular =>
      refine .inr ⟨_, _, _, _, ⟨wellFormed, generateAll_of_generated settled ran, sameManifest,
        regular, rfl, ?_⟩⟩
      intro path _ key entry
      exact Iff.rfl

end FactoryProxy.Command
