import FactoryProxy.Proofs.FileSystem.Opening

/-!
Contract: what making directories leaves of a file system.

A directory is made under a free name only. So every entry stays as it is, whatever was
found at the end of a path is found there afterwards, and what is new is a directory to
which one of the made paths leads.

Owns: file systems in which directories have been made.
-/

namespace FactoryProxy.FileSystem

variable {files middle made : FileSystem} {followLast : Bool} {links : Nat} {here key : FileKey}
  {segments : List String} {path : Path} {paths : List Path}

/-- A directory under the free name at the end of a way is found there, links followed. -/
theorem leads_put_vacant (leads : Leads files followLast links here segments (.vacant key)) :
    Leads (files.put key .directory) true links here segments (.found key .directory) := by
  obtain ⟨notRoot, free⟩ := isTrue_of_leads leads
  generalize isPlace : Place.vacant key = place at leads
  induction leads with
  | finish => cases isPlace
  | silent isSilent _ inductionHypothesis => exact .silent isSilent (inductionHypothesis isPlace)
  | above _ inductionHypothesis => exact .above (inductionHypothesis isPlace)
  | vacant isName absent =>
      obtain rfl := Place.vacant.inj isPlace
      apply Leads.directory isName _ .finish
      rw [lookup_put files notRoot, if_pos rfl]
  | vacantDirectory => cases isPlace
  | directory isName isThere _ inductionHypothesis =>
      exact .directory isName (lookup_put_free notRoot free _ isThere) (inductionHypothesis isPlace)
  | file => cases isPlace
  | lastLink => cases isPlace
  | link isName isThere _ _ inductionHypothesis =>
      -- A link on the way is followed whether or not one at its end would be.
      exact .link isName (lookup_put_free notRoot free _ isThere) (by simp)
        (inductionHypothesis isPlace)

/-! ## Made directories -/

/-- Entries stay as they are, and what is new is a directory at the end of one of the
paths. -/
structure Made (paths : List Path) (files made : FileSystem) : Prop where
  stays : ∀ {key entry}, files.lookup key = some entry → made.lookup key = some entry
  origin : ∀ {key entry}, files.lookup key = none → made.lookup key = some entry →
    entry = .directory ∧
      ∃ path ∈ paths, made.entryAt (withoutEndSlash path) = .ok (key, .directory)
  leads : ∀ {path key entry}, files.entryAt path = .ok (key, entry) →
    made.entryAt path = .ok (key, entry)

theorem Made.refl (paths : List Path) (files : FileSystem) : Made paths files files where
  stays := id
  origin := by
    intro key entry absent isThere
    rw [absent] at isThere
    cases isThere
  leads := id

theorem Made.trans (first : Made paths files middle) (second : Made paths middle made) :
    Made paths files made where
  stays := fun isThere => second.stays (first.stays isThere)
  origin := by
    intro key entry absent isThere
    cases wasThere : middle.lookup key with
    | none => exact second.origin wasThere isThere
    | some held =>
        obtain ⟨rfl, path, member, leads⟩ := first.origin absent wasThere
        have same := isThere.symm.trans (second.stays wasThere)
        exact ⟨Option.some.inj same, path, member, second.leads leads⟩
  leads := fun found => second.leads (first.leads found)

theorem Made.isFile (whole : Made paths files made) (wasFile : files.isFile path = true) :
    made.isFile path = true := by
  obtain ⟨key, content, found⟩ := isFile_iff_entryAt.mp wasFile
  exact isFile_iff_entryAt.mpr ⟨key, content, whole.leads found⟩

/-- One directory under a free name. -/
theorem made_put_directory (member : path ∈ paths)
    (isVacant : files.locate false (withoutEndSlash path) = .ok (.vacant key)) :
    Made paths files (files.put key .directory) := by
  obtain ⟨usable, leads⟩ := locate_eq_ok_iff.mp isVacant
  obtain ⟨notRoot, free⟩ := isTrue_of_leads leads
  refine ⟨fun isThere => lookup_put_free notRoot free _ isThere, ?_,
    fun found => entryAt_put_free notRoot free _ found⟩
  intro present held absent isThere
  rw [lookup_put files notRoot] at isThere
  split at isThere
  · rename_i isKey
    refine ⟨(Option.some.inj isThere).symm, path, member, ?_⟩
    rw [isKey]
    exact entryAt_eq_ok_iff.mpr (locate_eq_ok_iff.mpr ⟨usable, leads_put_vacant leads⟩)
  · rw [absent] at isThere
    cases isThere

/-- The path and all the paths above it. -/
def wayTo (directory : Path) : List Path :=
  directory.ancestors (directory.text.length + 2)

theorem made_createDirectories (directory : Path) (files : FileSystem) :
    Made (wayTo directory) files (createDirectories directory files).2 := by
  have step : ∀ path ∈ wayTo directory, ∀ middle key, Made (wayTo directory) files middle →
      middle.locate false (withoutEndSlash path) = .ok (.vacant key) →
        Made (wayTo directory) files (middle.put key .directory) :=
    fun _ member _ _ before isVacant => before.trans (made_put_directory member isVacant)
  exact createChain_keeps step (.refl (wayTo directory) files)

end FactoryProxy.FileSystem

namespace FactoryProxy.Artifact

theorem made_openDirectory (directory : Path) (files : FileSystem) :
    FileSystem.Made (FileSystem.wayTo directory) files (openDirectory directory files).2 := by
  rw [openDirectory_snd]
  exact FileSystem.made_createDirectories directory files

end FactoryProxy.Artifact
