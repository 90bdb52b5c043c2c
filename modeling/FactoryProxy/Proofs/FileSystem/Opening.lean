import FactoryProxy.Artifact.Registry
import FactoryProxy.Proofs.FileSystem.Descending
import FactoryProxy.Proofs.OrderedMap.Rebuild
import Mathlib.Data.List.TakeWhile

/-!
Contract: opening a directory.

A file system is well-formed if its keys are made of names that entries may have, every
entry is held by a directory, and the current directory is one. Ways in such a file system
lead from directory to directory, and directories that are made keep it well-formed.

Owns: well-formed file systems, the directories on ways through them, and the file system
after a directory has been opened, which is the one before if the directory was there.
-/

namespace FactoryProxy

namespace FileSystem

variable {files made : FileSystem} {followLast : Bool} {links : Nat} {here key : FileKey}
  {segments : List String} {path directory : Path} {name : String}

/-! ## Well-formed file systems -/

structure WellFormed (files : FileSystem) : Prop where
  named : ∀ entry ∈ files.entries.entries, ∀ name, entry.1.getLast? = some name →
    IsEntryName name
  held : ∀ entry ∈ files.entries.entries, files.lookup entry.1.dropLast = some .directory
  current : files.lookup files.current = some .directory

def isDirectoryKey (files : FileSystem) (key : FileKey) : Bool :=
  match files.lookup key with
  | some .directory => true
  | _ => false

theorem isDirectoryKey_iff :
    files.isDirectoryKey key = true ↔ files.lookup key = some .directory := by
  unfold isDirectoryKey
  split
  · rename_i isThere
    simp [isThere]
  · rename_i isOther
    exact ⟨fun isTrue => absurd isTrue Bool.false_ne_true, fun isThere => absurd isThere isOther⟩

instance (files : FileSystem) : Decidable (WellFormed files) :=
  decidable_of_iff
    ((∀ entry ∈ files.entries.entries, ∀ name ∈ entry.1.getLast?, IsEntryName name) ∧
      (∀ entry ∈ files.entries.entries, files.isDirectoryKey entry.1.dropLast = true) ∧
      files.isDirectoryKey files.current = true)
    ⟨fun parts => ⟨parts.1, fun entry member => isDirectoryKey_iff.mp (parts.2.1 entry member),
        isDirectoryKey_iff.mp parts.2.2⟩,
      fun wellFormed => ⟨wellFormed.named,
        fun entry member => isDirectoryKey_iff.mpr (wellFormed.held entry member),
        isDirectoryKey_iff.mpr wellFormed.current⟩⟩

theorem mem_of_lookup {entry : FileEntry} (notRoot : key ≠ [])
    (found : files.lookup key = some entry) : (key, entry) ∈ files.entries.entries := by
  cases key with
  | nil => exact absurd rfl notRoot
  | cons head tail => exact OrderedMap.mem_of_get? found

/-- What holds an entry is a directory. -/
theorem WellFormed.holder (wellFormed : WellFormed files) {entry : FileEntry}
    (found : files.lookup key = some entry) : files.lookup key.dropLast = some .directory := by
  cases key with
  | nil => rfl
  | cons head tail => exact wellFormed.held _ (mem_of_lookup (List.cons_ne_nil _ _) found)

theorem lookup_startOf (target : String) (isHere : files.lookup here = some .directory) :
    files.lookup (startOf target here) = some .directory := by
  unfold startOf
  split
  · rfl
  · exact isHere

/-- Ways from a directory to a directory end at an entry. -/
theorem lookup_of_leads_directory (wellFormed : WellFormed files)
    (isHere : files.lookup here = some .directory)
    (leads : Leads files followLast links here segments (.found key .directory)) :
    files.lookup key = some .directory := by
  generalize isPlace : Place.found key .directory = place at leads
  induction leads with
  | finish =>
      rw [(Place.found.inj isPlace).1]
      exact isHere
  | silent _ _ inductionHypothesis => exact inductionHypothesis isHere isPlace
  | above _ inductionHypothesis => exact inductionHypothesis (wellFormed.holder isHere) isPlace
  | vacant => cases isPlace
  | vacantDirectory => cases isPlace
  | directory _ isThere _ inductionHypothesis => exact inductionHypothesis isThere isPlace
  | file => cases isPlace
  | lastLink => cases isPlace
  | link _ _ _ _ inductionHypothesis =>
      exact inductionHypothesis (lookup_startOf _ isHere) isPlace

theorem lookup_of_entryAt_directory (wellFormed : WellFormed files)
    (found : files.entryAt path = .ok (key, .directory)) : files.lookup key = some .directory :=
  lookup_of_leads_directory wellFormed (lookup_startOf _ wellFormed.current)
    (locate_eq_ok_iff.mp (entryAt_eq_ok_iff.mp found)).2

/-! ## Free names -/

theorem free_of_mem_segmentsOf {text segment : String} (member : segment ∈ segmentsOf text) :
    ∀ c ∈ segment.toList, Path.isSlash c = false := by
  unfold segmentsOf Text.splitBy at member
  obtain ⟨piece, isPiece, rfl⟩ := List.mem_map.mp member
  rw [String.toList_ofList]
  exact Text.free_of_mem_pieces isPiece

/-- A free name at the end of a way is one that an entry may have, in a directory. -/
theorem holder_of_vacant (wellFormed : WellFormed files)
    (isHere : files.lookup here = some .directory)
    (free : ∀ segment ∈ segments, ∀ c ∈ segment.toList, Path.isSlash c = false)
    (leads : Leads files followLast links here segments (.vacant key)) :
    ∃ holder name, key = holder ++ [name] ∧ IsEntryName name ∧
      files.lookup holder = some .directory ∧ files.lookup key = none := by
  generalize isPlace : Place.vacant key = place at leads
  induction leads with
  | finish => cases isPlace
  | silent _ _ inductionHypothesis =>
      exact inductionHypothesis isHere (fun segment member =>
        free segment (List.mem_cons_of_mem _ member)) isPlace
  | above _ inductionHypothesis =>
      exact inductionHypothesis (wellFormed.holder isHere) (fun segment member =>
        free segment (List.mem_cons_of_mem _ member)) isPlace
  | @vacant links here segment isName absent =>
      obtain rfl := Place.vacant.inj isPlace
      exact ⟨here, segment, rfl, ⟨isName.isLoud, isName.isBelow, free segment List.mem_cons_self⟩,
        isHere, absent⟩
  | vacantDirectory => cases isPlace
  | directory _ isThere _ inductionHypothesis =>
      exact inductionHypothesis isThere (fun segment member =>
        free segment (List.mem_cons_of_mem _ member)) isPlace
  | file => cases isPlace
  | lastLink => cases isPlace
  | link _ _ _ _ inductionHypothesis =>
      refine inductionHypothesis (lookup_startOf _ isHere) ?_ isPlace
      intro segment member
      rcases List.mem_append.mp member with inTarget | inRest
      · exact free_of_mem_segmentsOf inTarget
      · exact free segment (List.mem_cons_of_mem _ inRest)

/-- An entry under a name in a directory keeps a file system well-formed, unless it takes the
place of a directory. -/
theorem WellFormed.put {holder : FileKey} {entry : FileEntry} (wellFormed : WellFormed files)
    (entryName : IsEntryName name) (isHolder : files.lookup holder = some .directory)
    (keeps : files.lookup (holder ++ [name]) = some .directory → entry = .directory) :
    WellFormed (files.put (holder ++ [name]) entry) := by
  have notRoot : holder ++ [name] ≠ [] :=
    List.append_ne_nil_of_right_ne_nil _ (List.cons_ne_nil _ _)
  have staysDirectory : ∀ other, files.lookup other = some .directory →
      (files.put (holder ++ [name]) entry).lookup other = some .directory := by
    intro other isThere
    rw [lookup_put files notRoot]
    split
    · rename_i isKey
      rw [isKey] at isThere
      rw [keeps isThere]
    · exact isThere
  have origin : ∀ present ∈ (files.put (holder ++ [name]) entry).entries.entries,
      present.1 = holder ++ [name] ∨ ∃ old ∈ files.entries.entries, present.1 = old.1 := by
    intro present member
    rcases OrderedMap.mem_upsertEntry member with isNew | isOld
    · rw [isNew]
      exact .inl rfl
    · exact .inr isOld
  refine ⟨?_, ?_, staysDirectory _ wellFormed.current⟩
  · intro present member other isLast
    rcases origin present member with isNew | ⟨old, isOld, sameKey⟩
    · rw [isNew, List.getLast?_append, List.getLast?_singleton] at isLast
      obtain rfl := Option.some.inj isLast
      exact entryName
    · rw [sameKey] at isLast
      exact wellFormed.named old isOld other isLast
  · intro present member
    rcases origin present member with isNew | ⟨old, isOld, sameKey⟩
    · rw [isNew, List.dropLast_concat]
      exact staysDirectory holder isHolder
    · rw [sameKey]
      exact staysDirectory _ (wellFormed.held old isOld)

/-- An entry under a free name keeps a file system well-formed. -/
theorem WellFormed.put_vacant (wellFormed : WellFormed files) (entry : FileEntry)
    (isVacant : files.locate followLast path = .ok (.vacant key)) :
    WellFormed (files.put key entry) := by
  obtain ⟨holder, name, rfl, entryName, isHolder, absent⟩ :=
    holder_of_vacant wellFormed (lookup_startOf _ wellFormed.current)
      (fun _ member => free_of_mem_segmentsOf member) (locate_eq_ok_iff.mp isVacant).2
  apply wellFormed.put entryName isHolder
  intro isThere
  rw [absent] at isThere
  cases isThere

/-- A written file keeps a file system well-formed. -/
theorem WellFormed.write {content : ByteArray} (wellFormed : WellFormed files)
    (wrote : write path content files = (.ok (), made)) : WellFormed made := by
  obtain ⟨key, isKey, rfl⟩ := write_eq_ok wrote
  rcases writingKey_eq_ok isKey with ⟨old, located⟩ | located
  · have isThere := lookup_of_entryAt (entryAt_eq_ok_iff.mpr located)
    have notRoot := (isWritable_of_writingKey isKey).notRoot
    have isKey : key.dropLast ++ [key.getLast notRoot] = key := List.dropLast_concat_getLast notRoot
    have entryName := wellFormed.named _ (mem_of_lookup notRoot isThere) _
      (List.getLast?_eq_some_getLast notRoot)
    have keeps : files.lookup (key.dropLast ++ [key.getLast notRoot]) = some .directory →
        FileEntry.file content = .directory := by
      rw [isKey, isThere]
      intro isDirectory
      cases isDirectory
    have put := wellFormed.put entryName (wellFormed.holder isThere) keeps
    rw [isKey] at put
    exact put
  · exact wellFormed.put_vacant _ located

/-! ## Made directories -/

/-- What a directory under a free name keeps is kept when a directory is made. -/
theorem createDirectory_keeps {kept : FileSystem → Prop}
    (step : ∀ files key, kept files →
      files.locate false (withoutEndSlash path) = .ok (.vacant key) → kept (files.put key .directory))
    (before : kept files) : kept (createDirectory path files).2 := by
  unfold createDirectory create
  split
  · rename_i located
    exact step _ _ before located
  · exact before
  · exact before
  · exact before

/-- What a directory under a free name keeps is kept by a chain of directories. -/
theorem createChain_keeps {kept : FileSystem → Prop} {paths : List Path}
    (step : ∀ path ∈ paths, ∀ files key, kept files →
      files.locate false (withoutEndSlash path) = .ok (.vacant key) → kept (files.put key .directory))
    (before : kept files) : kept (createChain paths files).2 := by
  induction paths generalizing files with
  | nil => exact before
  | cons path above inductionHypothesis =>
      obtain ⟨stepHere, stepAbove⟩ := List.forall_mem_cons.mp step
      have madeFirst := createDirectory_keeps stepHere before
      have madeAbove := inductionHypothesis stepAbove before
      unfold createChain
      split
      · exact before
      · split
        · rename_i made isMade
          rw [isMade] at madeFirst
          exact madeFirst
        · split
          · rename_i made isMade
            rw [isMade] at madeAbove
            have madeLast := createDirectory_keeps stepHere madeAbove
            split
            · rename_i whole isWhole
              rw [isWhole] at madeLast
              exact madeLast
            · split
              · exact madeAbove
              · exact madeAbove
          · rename_i made isMade
            rw [isMade] at madeAbove
            exact madeAbove
        · split
          · exact before
          · exact before

theorem WellFormed.createDirectories (wellFormed : WellFormed files) (path : Path) :
    WellFormed (createDirectories path files).2 :=
  createChain_keeps (fun _ _ _ _ before isVacant => before.put_vacant _ isVacant) wellFormed

/-! ## Directories that are there -/

/-- A way to a directory with slashes at its end leads somewhere without them, though
perhaps only to a link to that directory. -/
theorem leads_without_slashes {slashes : Nat}
    (leads : Leads files true links here (segments ++ List.replicate slashes "")
      (.found key .directory)) :
    ∃ found entry, Leads files false links here segments (.found found entry) := by
  generalize isWay : segments ++ List.replicate slashes "" = way at leads
  generalize isPlace : Place.found key .directory = place at leads
  induction leads generalizing segments with
  | @finish links here =>
      rw [(List.append_eq_nil_iff.mp isWay).1]
      exact ⟨here, .directory, .finish⟩
  | @silent links here segment rest place isSilent _ inductionHypothesis =>
      cases segments with
      | nil => exact ⟨here, .directory, .finish⟩
      | cons first others =>
          obtain ⟨rfl, isRest⟩ := List.cons.inj isWay
          obtain ⟨found, entry, leadsShort⟩ := inductionHypothesis isRest isPlace
          exact ⟨found, entry, .silent isSilent leadsShort⟩
  | @above links here rest place _ inductionHypothesis =>
      cases segments with
      | nil => exact ⟨here, .directory, .finish⟩
      | cons first others =>
          obtain ⟨rfl, isRest⟩ := List.cons.inj isWay
          obtain ⟨found, entry, leadsShort⟩ := inductionHypothesis isRest isPlace
          exact ⟨found, entry, .above leadsShort⟩
  | vacant => cases isPlace
  | vacantDirectory => cases isPlace
  | @directory links here segment rest place isName isThere _ inductionHypothesis =>
      cases segments with
      | nil => exact ⟨here, .directory, .finish⟩
      | cons first others =>
          obtain ⟨rfl, isRest⟩ := List.cons.inj isWay
          obtain ⟨found, entry, leadsShort⟩ := inductionHypothesis isRest isPlace
          exact ⟨found, entry, .directory isName isThere leadsShort⟩
  | file => cases isPlace
  | lastLink _ _ stays => cases stays
  | @link links here segment target rest place isName isThere _ _ inductionHypothesis =>
      cases segments with
      | nil => exact ⟨here, .directory, .finish⟩
      | cons first others =>
          obtain ⟨rfl, isRest⟩ := List.cons.inj isWay
          cases others with
          | nil => exact ⟨here ++ [first], .link target, .lastLink isName isThere rfl⟩
          | cons second further =>
              have isBehind : (segmentsOf target ++ second :: further) ++
                  List.replicate slashes "" = segmentsOf target ++ rest := by
                rw [← isRest]
                exact List.append_assoc _ _ _
              obtain ⟨found, entry, leadsShort⟩ := inductionHypothesis isBehind isPlace
              exact ⟨found, entry, .link isName isThere (by simp) leadsShort⟩

/-- A text is the one without slashes at its end and then those slashes. -/
theorem toList_trimEnd (text : String) :
    ∃ slashes, text.toList =
      (Text.trimEnd Path.isSlash text).toList ++ List.replicate slashes '/' := by
  unfold Text.trimEnd Text.dropTail
  rw [String.toList_ofList]
  refine ⟨(text.toList.reverse.takeWhile Path.isSlash).length, ?_⟩
  have areSlashes : text.toList.reverse.takeWhile Path.isSlash =
      List.replicate (text.toList.reverse.takeWhile Path.isSlash).length '/' := by
    apply List.eq_replicate_iff.mpr
    refine ⟨rfl, fun c member => ?_⟩
    have isSlash : Path.isSlash c = true := List.mem_takeWhile_imp member
    exact eq_of_beq isSlash
  have parts := congrArg List.reverse
    (List.takeWhile_append_dropWhile (p := Path.isSlash) (l := text.toList.reverse))
  rw [List.reverse_append, List.reverse_reverse, areSlashes, List.reverse_replicate] at parts
  exact parts.symm

theorem segmentsOf_slashes {text trimmed : String} {slashes : Nat}
    (isText : text.toList = trimmed.toList ++ List.replicate slashes '/') :
    segmentsOf text = segmentsOf trimmed ++ List.replicate slashes "" := by
  unfold segmentsOf Text.splitBy
  rw [isText, Text.pieces_replicate rfl, List.map_append, List.map_replicate]

theorem startOf_slashes {text trimmed : String} {slashes : Nat}
    (isText : text.toList = trimmed.toList ++ List.replicate slashes '/')
    (nonempty : trimmed ≠ "") (here : FileKey) : startOf text here = startOf trimmed here := by
  have together : (Path.mk text).isAbsolute = (Path.mk trimmed).isAbsolute := by
    unfold Path.isAbsolute
    rw [isText]
    cases characters : trimmed.toList with
    | nil => exact absurd (String.toList_inj.mp characters) nonempty
    | cons first rest => rfl
  unfold startOf
  rw [together]

theorem isUsable_of_slashes {trimmed : String} {slashes : Nat} (usable : IsUsable path)
    (isText : path.text.toList = trimmed.toList ++ List.replicate slashes '/')
    (nonempty : trimmed ≠ "") : IsUsable ⟨trimmed⟩ := by
  have isAppended : path.text = trimmed ++ String.ofList (List.replicate slashes '/') := by
    apply String.toList_inj.mp
    rw [isText, String.toList_append, String.toList_ofList]
  refine ⟨?_, ?_, ?_⟩
  · intro zero
    apply usable.isText
    rw [isText, List.contains_iff_mem] at *
    exact List.mem_append_left _ zero
  · intro isEmpty
    exact nonempty (String.isEmpty_iff.mp isEmpty)
  · intro tooLong
    apply usable.isShort
    rw [isAppended, String.utf8ByteSize_append]
    exact Nat.lt_of_lt_of_le tooLong (Nat.le_add_right _ _)

/-- Without slashes at its end a path to a directory still leads to an entry. -/
theorem locate_withoutEndSlash (found : files.entryAt path = .ok (key, .directory)) :
    ∃ reached entry,
      files.locate false (withoutEndSlash path) = .ok (.found reached entry) := by
  obtain ⟨usable, leads⟩ := locate_eq_ok_iff.mp (entryAt_eq_ok_iff.mp found)
  obtain ⟨slashes, isText⟩ := toList_trimEnd path.text
  unfold withoutEndSlash
  generalize Text.trimEnd Path.isSlash path.text = trimmed at isText
  by_cases onlySlashes : trimmed = ""
  · -- The path is that of the root.
    have isAbsolute : path.isAbsolute = true := by
      rw [onlySlashes] at isText
      unfold Path.isAbsolute
      rw [isText]
      cases slashes with
      | zero =>
          have isEmpty := String.isEmpty_iff.mpr (String.toList_inj.mp isText)
          exact absurd isEmpty usable.isNonempty
      | succ slashes => rfl
    have isRoot : (if trimmed.isEmpty && path.isAbsolute then Path.mk "/" else ⟨trimmed⟩) =
        ⟨"/"⟩ := by
      rw [onlySlashes, isAbsolute]
      rfl
    refine ⟨[], .directory, ?_⟩
    dsimp only
    rw [isRoot]
    refine locate_eq_ok_iff.mpr ⟨⟨by decide, by decide, by decide⟩, ?_⟩
    exact .silent (.inl rfl) (.silent (.inl rfl) .finish)
  · rw [segmentsOf_slashes isText, startOf_slashes isText onlySlashes] at leads
    obtain ⟨reached, entry, leadsShort⟩ := leads_without_slashes leads
    have staysTrimmed : (if trimmed.isEmpty && path.isAbsolute then Path.mk "/" else ⟨trimmed⟩) =
        ⟨trimmed⟩ := by
      rw [if_neg]
      intro both
      exact onlySlashes (String.isEmpty_iff.mp (Bool.and_eq_true_iff.mp both).1)
    refine ⟨reached, entry, ?_⟩
    dsimp only
    rw [staysTrimmed]
    exact locate_eq_ok_iff.mpr ⟨isUsable_of_slashes usable isText onlySlashes, leadsShort⟩

/-- A directory that is there is not made again. -/
theorem createDirectories_of_directory (found : files.entryAt path = .ok (key, .directory)) :
    createDirectories path files = (.ok (), files) := by
  obtain ⟨reached, entry, located⟩ := locate_withoutEndSlash found
  have isMade : createDirectory path files = (.error .alreadyExists, files) := by
    unfold createDirectory create
    rw [located]
  have isDirectory : files.isDirectory path = true := isDirectory_iff.mpr ⟨key, found⟩
  show (if path.components.isEmpty = true then _ else _) = _
  by_cases isRoot : path.components.isEmpty = true
  · rw [if_pos isRoot]
  · rw [if_neg isRoot, isMade]
    exact if_pos isDirectory

end FileSystem

namespace Artifact

open FileSystem

variable {files : FileSystem} {directory : Path}

/-- Opening a directory makes it, and what is missing above it. -/
theorem openDirectory_snd (directory : Path) (files : FileSystem) :
    (openDirectory directory files).2 = (createDirectories directory files).2 := by
  unfold openDirectory
  split
  · rename_i opened isOpened
    rw [isOpened]
  · rename_i opened isOpened
    rw [isOpened]
    split
    · rfl
    · rfl

theorem wellFormed_openDirectory (wellFormed : WellFormed files) (directory : Path) :
    WellFormed (openDirectory directory files).2 := by
  rw [openDirectory_snd]
  exact wellFormed.createDirectories directory

/-- A directory whose child is a file is open. -/
theorem openDirectory_of_child {name : String} {key : FileKey} {content : ByteArray}
    (entryName : IsEntryName name)
    (found : files.entryAt (directory.child name) = .ok (key, .file content)) :
    openDirectory directory files = (.ok (), files) := by
  have made : createDirectories directory files = (.ok (), files) := by
    by_cases isEmpty : directory.text = ""
    · have isBlank : directory = ⟨""⟩ := congrArg Path.mk isEmpty
      rw [isBlank]
      rfl
    · obtain ⟨holder, isHolder, _⟩ := entryAt_of_child entryName isEmpty found
      exact createDirectories_of_directory isHolder
  unfold openDirectory
  rw [made]

end Artifact

end FactoryProxy
