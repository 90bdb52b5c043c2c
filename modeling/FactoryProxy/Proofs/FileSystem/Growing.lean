import FactoryProxy.Proofs.FileSystem.Rewriting
import FactoryProxy.Proofs.FileSystem.Scanning

/-!
Contract: what writes leave of the ways, the walks and the scans of a file system.

Writing changes contents and adds files, and leaves directories and links as they are. So
whatever led to an entry leads to it afterwards, a walk that succeeded succeeds again, and
a scan finds what it found and at most the written files besides.

Owns: file systems that have grown by files, and scans of them.
-/

namespace FactoryProxy

/-- The entry is the same one, or a file with another content. -/
inductive FileEntry.Rewritten : FileEntry → FileEntry → Prop where
  | same (entry : FileEntry) : Rewritten entry entry
  | file (old new : ByteArray) : Rewritten (.file old) (.file new)

theorem FileEntry.Rewritten.trans {first second third : FileEntry}
    (before : Rewritten first second) (behind : Rewritten second third) :
    Rewritten first third := by
  cases before with
  | same => exact behind
  | file old new =>
      cases behind with
      | same => exact .file old new
      | file _ last => exact .file old last

namespace FileSystem

open Sequencing

variable {files middle after : FileSystem} {path left right directory : Path} {key target : FileKey}
  {entry : FileEntry} {content : ByteArray} {written : List (Path × ByteArray)}
  {depth : Nat} {openDirectories : List (Path × FileKey)} {name : String} {listed : List Path}

/-! ## Growth by files -/

/-- What leads somewhere leads there afterwards, and what is new is a file. -/
structure Grows (files after : FileSystem) : Prop where
  stays : ∀ {key entry}, files.lookup key = some entry →
    ∃ left, after.lookup key = some left ∧ entry.Rewritten left
  origin : ∀ {key left}, after.lookup key = some left →
    (∃ content, left = .file content) ∨ files.lookup key = some left
  leads : ∀ {path key entry}, files.entryAt path = .ok (key, entry) →
    ∃ left, after.entryAt path = .ok (key, left) ∧ entry.Rewritten left
  current : after.current = files.current

theorem Grows.refl (files : FileSystem) : Grows files files where
  stays := fun isThere => ⟨_, isThere, .same _⟩
  origin := .inr
  leads := fun found => ⟨_, found, .same _⟩
  current := rfl

theorem Grows.trans (first : Grows files middle) (second : Grows middle after) :
    Grows files after where
  stays := by
    intro key entry isThere
    obtain ⟨left, isLeft, rewritten⟩ := first.stays isThere
    obtain ⟨last, isLast, rewrittenAgain⟩ := second.stays isLeft
    exact ⟨last, isLast, rewritten.trans rewrittenAgain⟩
  origin := by
    intro key left isThere
    rcases second.origin isThere with isFile | isMiddle
    · exact .inl isFile
    · exact first.origin isMiddle
  leads := by
    intro path key entry found
    obtain ⟨left, isLeft, rewritten⟩ := first.leads found
    obtain ⟨last, isLast, rewrittenAgain⟩ := second.leads isLeft
    exact ⟨last, isLast, rewritten.trans rewrittenAgain⟩
  current := second.current.trans first.current

theorem grows_put (writable : IsWritable files key) (content : ByteArray) :
    Grows files (files.put key (.file content)) where
  stays := by
    intro other entry isThere
    rw [lookup_put files writable.notRoot]
    by_cases same : other = key
    · rw [same] at isThere
      obtain ⟨old, rfl⟩ := writable.holdsFile entry isThere
      rw [if_pos same]
      exact ⟨_, rfl, .file old content⟩
    · rw [if_neg same]
      exact ⟨entry, isThere, .same entry⟩
  origin := by
    intro other left isThere
    rw [lookup_put files writable.notRoot] at isThere
    by_cases same : other = key
    · rw [if_pos same] at isThere
      exact .inl ⟨content, (Option.some.inj isThere).symm⟩
    · rw [if_neg same] at isThere
      exact .inr isThere
  leads := by
    intro path other entry found
    have located := locate_put writable content (entryAt_eq_ok_iff.mp found)
      (fun _ => Place.noConfusion)
    cases entry with
    | file old => exact ⟨_, entryAt_eq_ok_iff.mpr located, .file old _⟩
    | directory => exact ⟨_, entryAt_eq_ok_iff.mpr located, .same _⟩
    | link target => exact ⟨_, entryAt_eq_ok_iff.mpr located, .same _⟩
  current := rfl

/-- Writes in a row let a file system grow by files. -/
theorem WritesAll.grows (wrote : WritesAll written files after) : Grows files after := by
  induction wrote with
  | @nil files => exact .refl files
  | cons wroteHead _ inductionHypothesis =>
      obtain ⟨key, isKey, rfl⟩ := write_eq_ok wroteHead
      exact (grows_put (isWritable_of_writingKey isKey) _).trans inductionHypothesis

theorem WritesAll.wellFormed (wrote : WritesAll written files after)
    (wellFormed : WellFormed files) : WellFormed after := by
  induction wrote with
  | nil => exact wellFormed
  | cons wroteHead _ inductionHypothesis => exact inductionHypothesis (wellFormed.write wroteHead)

/-- A path that leads to a file led to it before if the file was there. -/
theorem Grows.leads_before {links : Nat} {here : FileKey} {segments : List String}
    {old : ByteArray} (grows : Grows files after)
    (leads : Leads after true links here segments (.found key (.file content)))
    (wasThere : files.lookup key = some (.file old)) :
    Leads files true links here segments (.found key (.file old)) := by
  have wasDirectory : ∀ {other}, after.lookup other = some .directory →
      files.lookup other = some .directory := by
    intro other isThere
    rcases grows.origin isThere with ⟨_, isFile⟩ | isOld
    · cases isFile
    · exact isOld
  have wasLink : ∀ {other text}, after.lookup other = some (.link text) →
      files.lookup other = some (.link text) := by
    intro other text isThere
    rcases grows.origin isThere with ⟨_, isFile⟩ | isOld
    · cases isFile
    · exact isOld
  generalize isPlace : Place.found key (.file content) = place at leads
  induction leads with
  | finish => cases isPlace
  | silent isSilent _ inductionHypothesis => exact .silent isSilent (inductionHypothesis isPlace)
  | above _ inductionHypothesis => exact .above (inductionHypothesis isPlace)
  | vacant => cases isPlace
  | vacantDirectory => cases isPlace
  | directory isName isThere _ inductionHypothesis =>
      exact .directory isName (wasDirectory isThere) (inductionHypothesis isPlace)
  | file isName isThere =>
      obtain ⟨rfl, _⟩ := Place.found.inj isPlace
      exact .file isName wasThere
  | lastLink _ _ stays => cases stays
  | link isName isThere goesOn _ inductionHypothesis =>
      exact .link isName (wasLink isThere) goesOn (inductionHypothesis isPlace)

theorem Grows.entryAt_before {old : ByteArray} (grows : Grows files after)
    (found : after.entryAt path = .ok (key, .file content))
    (wasThere : files.lookup key = some (.file old)) :
    files.entryAt path = .ok (key, .file old) := by
  obtain ⟨usable, leads⟩ := locate_eq_ok_iff.mp (entryAt_eq_ok_iff.mp found)
  rw [grows.current] at leads
  exact entryAt_eq_ok_iff.mpr (locate_eq_ok_iff.mpr ⟨usable, grows.leads_before leads wasThere⟩)

theorem Grows.isFile (grows : Grows files after) (wasFile : files.isFile path = true) :
    after.isFile path = true := by
  obtain ⟨key, old, found⟩ := isFile_iff_entryAt.mp wasFile
  obtain ⟨left, isLeft, rewritten⟩ := grows.leads found
  cases rewritten with
  | same => exact isFile_iff_entryAt.mpr ⟨key, old, isLeft⟩
  | file _ new => exact isFile_iff_entryAt.mpr ⟨key, new, isLeft⟩

theorem Grows.isDirectory (grows : Grows files after)
    (wasDirectory : files.isDirectory path = true) : after.isDirectory path = true := by
  obtain ⟨key, found⟩ := isDirectory_iff.mp wasDirectory
  obtain ⟨left, isLeft, rewritten⟩ := grows.leads found
  cases rewritten
  exact isDirectory_iff.mpr ⟨key, isLeft⟩

/-- Under every key is what was there, or what a write has left whose path leads to it. -/
theorem WritesAll.lookup_cases (wrote : WritesAll written files after) (key : FileKey) :
    after.lookup key = files.lookup key ∨
      ∃ former ∈ written, after.entryAt former.1 = .ok (key, .file former.2) := by
  obtain ⟨puts, putsAfter, isAfter⟩ := wrote.exists_puts
  cases key with
  | nil => exact .inl rfl
  | cons head tail =>
      have isPut := get?_putAll files puts (head :: tail)
      rw [← isAfter] at isPut
      cases isLast : lastPut? (head :: tail) puts with
      | none =>
          rw [isLast, Option.map_none, Option.none_or] at isPut
          exact .inl isPut
      | some last =>
          obtain ⟨former, member, under⟩ := exists_left putsAfter (mem_of_lastPut? isLast)
          obtain ⟨left, leads⟩ := under.leads
          rw [isLast] at isPut
          have isWritten : left = former.2 := by
            have same := (lookup_of_entryAt leads).symm.trans isPut
            rw [FileEntry.file.inj (Option.some.inj same)]
            exact under.content
          rw [isWritten] at leads
          exact .inr ⟨former, member, leads⟩

/-- A path to a file that is new leads where one of the writes went. -/
theorem WritesAll.sameFile_of_new (wrote : WritesAll written files after)
    (found : after.entryAt path = .ok (key, .file content)) (wasFree : files.lookup key = none) :
    ∃ former ∈ written, after.SameFile former.1 path := by
  rcases wrote.lookup_cases key with unchanged | ⟨former, member, leads⟩
  · have isThere := lookup_of_entryAt found
    rw [unchanged, wasFree] at isThere
    cases isThere
  · exact ⟨former, member, sameFile_of_key leads found⟩

/-- A path to a file that no write went to led to a file before. -/
theorem WritesAll.isFile_before (wrote : WritesAll written files after)
    (isFile : after.isFile path = true)
    (apart : ∀ former ∈ written, ¬ after.SameFile former.1 path) : files.isFile path = true := by
  obtain ⟨key, content, found⟩ := isFile_iff_entryAt.mp isFile
  cases wasThere : files.lookup key with
  | none =>
      obtain ⟨former, isFormer, together⟩ := wrote.sameFile_of_new found wasThere
      exact absurd together (apart former isFormer)
  | some entry =>
      obtain ⟨left, isLeft, rewritten⟩ := wrote.grows.stays wasThere
      rw [lookup_of_entryAt found] at isLeft
      obtain rfl := Option.some.inj isLeft
      obtain ⟨old, rfl⟩ : ∃ old, entry = .file old := by
        cases rewritten with
        | same => exact ⟨content, rfl⟩
        | file old _ => exact ⟨old, rfl⟩
      have foundBefore := wrote.grows.entryAt_before found wasThere
      exact isFile_iff_entryAt.mpr ⟨key, old, foundBefore⟩

theorem isFile_of_sameFile (together : files.SameFile left right) : files.isFile right = true := by
  obtain ⟨key, content, _, found⟩ := together
  exact isFile_iff_entryAt.mpr ⟨key, content, found⟩

/-- A path leads to a file after writes exactly if it did before or one of the writes went
there. -/
theorem WritesAll.isFile_iff (wrote : WritesAll written files after) :
    after.isFile path = true ↔
      files.isFile path = true ∨ ∃ former ∈ written, after.SameFile former.1 path := by
  constructor
  · intro isFile
    by_cases together : ∃ former ∈ written, after.SameFile former.1 path
    · exact .inr together
    · exact .inl (wrote.isFile_before isFile
        (fun former member same => together ⟨former, member, same⟩))
  · rintro (wasFile | ⟨former, _, together⟩)
    · exact wrote.grows.isFile wasFile
    · exact isFile_of_sameFile together

/-! ## Walks -/

/-- A walk does at an entry what it did before. -/
theorem Grows.stepAt {held : FileEntry} {step : Step} (grows : Grows files after)
    (isStep : files.stepAt openDirectories path key held = .ok step) :
    after.stepAt openDirectories path key held = .ok step := by
  cases held with
  | file old => exact isStep
  | directory => exact isStep
  | link text =>
      obtain ⟨reached, entry, found, outcome⟩ := stepAt_link_eq_ok.mp isStep
      obtain ⟨left, isLeft, rewritten⟩ := grows.leads found
      refine stepAt_link_eq_ok.mpr ⟨reached, left, isLeft, ?_⟩
      cases rewritten with
      | same => exact outcome
      | file old new =>
          rcases outcome with ⟨isDirectory, _⟩ | ⟨_, takes⟩
          · cases isDirectory
          · exact .inr ⟨FileEntry.noConfusion, takes⟩

/-- A walk whose depth exceeds its room succeeds again, however deep it may go then. -/
theorem Grows.filesIn (grows : Grows files after) (wellFormed : WellFormed files)
    (enough : files.room openDirectories key < depth)
    (walked : files.filesIn depth openDirectories directory key = .ok listed) (laterDepth : Nat) :
    ∃ laterListed, after.filesIn laterDepth openDirectories directory key = .ok laterListed := by
  induction laterDepth generalizing depth openDirectories directory key listed with
  | zero => exact ⟨[], rfl⟩
  | succ laterDepth inductionHypothesis =>
      obtain ⟨depth, rfl⟩ := Nat.exists_eq_succ_of_ne_zero (Nat.ne_zero_of_lt enough)
      obtain ⟨inner, visits, rfl⟩ := filesIn_succ_eq_ok.mp walked
      have visitsAgain : ∀ child ∈ after.children key, ∃ found,
          after.filesAt laterDepth openDirectories directory key child = .ok found := by
        intro child isChild
        rcases grows.origin (lookup_of_mem_children isChild) with ⟨content, isFile⟩ | wasThere
        · refine ⟨_, filesAt_eq_ok.mpr (.inl ⟨?_, rfl⟩)⟩
          rw [isFile]
          rfl
        · obtain ⟨inside, _, visited⟩ := exists_right visits (mem_children wasThere)
          rcases filesAt_eq_ok.mp visited with ⟨takes, _⟩ | ⟨target, enters, walkedChild⟩
          · exact ⟨_, filesAt_eq_ok.mpr (.inl ⟨grows.stepAt takes, rfl⟩)⟩
          · have lessRoom := room_of_enter wellFormed wasThere enters
            obtain ⟨found, walkedAgain⟩ := inductionHypothesis
              (Nat.lt_of_lt_of_le lessRoom (Nat.le_of_lt_succ enough)) walkedChild
            exact ⟨found, filesAt_eq_ok.mpr (.inr ⟨target, grows.stepAt enters, walkedAgain⟩)⟩
      obtain ⟨laterInner, visited⟩ := mapM_isOk visitsAgain
      exact ⟨_, filesIn_succ_eq_ok.mpr ⟨laterInner, mapM_eq_ok.mp visited, rfl⟩⟩

theorem Grows.filesBelow (grows : Grows files after) (wellFormed : WellFormed files)
    (walked : files.filesBelow directory = .ok listed) :
    ∃ laterListed, after.filesBelow directory = .ok laterListed := by
  unfold FileSystem.filesBelow at walked ⊢
  rcases found : files.entryAt directory with failure | ⟨key, entry⟩
  · rw [found] at walked
    cases walked
  · rw [found] at walked
    obtain ⟨left, isLeft, rewritten⟩ := grows.leads found
    rw [isLeft]
    cases rewritten with
    | file old new => exact ⟨[], rfl⟩
    | same =>
        cases entry with
        | directory =>
            exact grows.filesIn wellFormed (files.room_lt_depthLimit _ key) walked _
        | file content => exact ⟨[], rfl⟩
        | link target => exact ⟨[], rfl⟩

end FileSystem

/-! ## Scans -/

namespace SourceFiles

open FileSystem Sequencing

variable {files after later : FileSystem} {roots : List Path} {exclude : List String}
  {root path : Path} {patterns : List (List Glob.Token)} {paths laterPaths scan : List Path}
  {written : List (Path × ByteArray)}

theorem below_grown (grows : Grows files after) (wellFormed : WellFormed files)
    (isFound : below files root = .ok paths) : ∃ laterPaths, below after root = .ok laterPaths := by
  obtain ⟨isDirectory, walks⟩ := below_eq_ok.mp isFound
  rcases walks with ⟨isInput, _⟩ | ⟨notInput, walked⟩
  · exact ⟨[], below_eq_ok.mpr ⟨grows.isDirectory isDirectory, .inl ⟨isInput, rfl⟩⟩⟩
  · obtain ⟨laterPaths, walkedAgain⟩ := grows.filesBelow wellFormed walked
    exact ⟨laterPaths, below_eq_ok.mpr
      ⟨grows.isDirectory isDirectory, .inr ⟨notInput, walkedAgain⟩⟩⟩

/-- What counts below directories counts later if it leads to a file then. -/
theorem mem_counted_all (wellFormed : WellFormed files) (laterFormed : WellFormed later)
    {listed laterListed : List (List Path)}
    (isFound : List.Forall₂ (fun root paths => below files root = .ok paths) roots listed)
    (isFoundLater :
      List.Forall₂ (fun root paths => below later root = .ok paths) roots laterListed)
    (member : path ∈ counted files patterns listed.flatten) (isFile : later.isFile path = true) :
    path ∈ counted later patterns laterListed.flatten := by
  obtain ⟨inListed, counts⟩ := List.mem_filter.mp member
  obtain ⟨paths, isListed, inPaths⟩ := List.mem_flatten.mp inListed
  obtain ⟨root, isRoot, isBelow⟩ := exists_left isFound isListed
  obtain ⟨laterPaths, isLater, isBelowLater⟩ := exists_right isFoundLater isRoot
  have inLater := mem_counted_later wellFormed laterFormed isBelow isBelowLater
    (List.mem_filter.mpr ⟨inPaths, counts⟩) rfl isFile
  obtain ⟨inLaterPaths, countsLater⟩ := List.mem_filter.mp inLater
  exact List.mem_filter.mpr ⟨List.mem_flatten.mpr ⟨laterPaths, isLater, inLaterPaths⟩, countsLater⟩

theorem find_grown (grows : Grows files after) (wellFormed : WellFormed files)
    (isFound : find files roots exclude = .ok scan) :
    ∃ laterScan, find after roots exclude = .ok laterScan := by
  obtain ⟨patterns, listed, isCompiled, isListed, _⟩ := find_eq_ok.mp isFound
  have listsAgain : ∀ root ∈ roots, ∃ laterPaths, below after root = .ok laterPaths := by
    intro root isRoot
    obtain ⟨paths, _, isBelow⟩ := exists_right isListed isRoot
    exact below_grown grows wellFormed isBelow
  obtain ⟨laterListed, isLater⟩ := mapM_isOk listsAgain
  exact ⟨_, find_eq_ok.mpr ⟨patterns, laterListed, isCompiled, mapM_eq_ok.mp isLater, rfl⟩⟩

/-- A scan finds the same paths after writes that went to none of the files it finds then. -/
theorem find_after_writes (wrote : WritesAll written files after) (wellFormed : WellFormed files)
    (isFound : find files roots exclude = .ok scan)
    (apart : ∀ laterScan, find after roots exclude = .ok laterScan →
      ∀ former ∈ written, ∀ source ∈ laterScan, ¬ after.SameFile former.1 source) :
    find after roots exclude = .ok scan := by
  have grows := wrote.grows
  have formedAfter := wrote.wellFormed wellFormed
  obtain ⟨laterScan, isFoundLater⟩ := find_grown grows wellFormed isFound
  have apartLater := apart laterScan isFoundLater
  have wasFile : ∀ source ∈ laterScan, files.isFile source = true :=
    fun source member => wrote.isFile_before (isFile_of_find isFoundLater member)
      (fun former isFormer => apartLater former isFormer source member)
  obtain ⟨patterns, listed, isCompiled, isListed, rfl⟩ := find_eq_ok.mp isFound
  obtain ⟨laterPatterns, laterListed, isCompiledLater, isListedLater, rfl⟩ :=
    find_eq_ok.mp isFoundLater
  obtain rfl := Except.ok.inj (isCompiled.symm.trans isCompiledLater)
  have samePaths : List.Forall₂ DependencySet.SamePath
      (OrderedSet.ofList (counted after patterns laterListed.flatten)).toList
      (OrderedSet.ofList (counted files patterns listed.flatten)).toList := by
    refine (OrderedSet.forall₂_of_covers (OrderedSet.increasing_toList _)
      (OrderedSet.increasing_toList _) ?_ ?_).imp (fun _ _ => Path.compare_eq_iff.mp)
    · intro source member
      apply OrderedSet.covers_ofList
      exact mem_counted_all formedAfter wellFormed isListedLater isListed
        (OrderedSet.mem_of_mem_toList_ofList member) (wasFile source member)
    · intro source member
      apply OrderedSet.covers_ofList
      have inCounted := OrderedSet.mem_of_mem_toList_ofList member
      exact mem_counted_all wellFormed formedAfter isListed isListedLater inCounted
        (grows.isFile (isFile_of_counts (List.mem_filter.mp inCounted).2))
  rw [← find_eq_of_samePaths wellFormed formedAfter isFound isFoundLater samePaths]
  exact isFoundLater

end SourceFiles

end FactoryProxy
