import FactoryProxy.FileSystem.Walk
import FactoryProxy.Proofs.FileSystem.Opening
import FactoryProxy.Proofs.Sequencing
import Mathlib.Data.List.Count

/-!
Contract: a walk lists exactly the files below its directory.

Every listed path goes down from the directory by names. Each path of that kind that leads
to a file is listed, since the bound on the depth is never reached: on its way down a walk
enters directories further below, and through a link only a directory that it is not in.

Owns: the room that is left to a walk, and what a walk lists.
-/

namespace FactoryProxy.FileSystem

open Sequencing

variable {files : FileSystem} {depth : Nat} {openDirectories : List (Path × FileKey)}
  {directory path : Path} {key target : FileKey} {name : String} {names : List String}
  {listed : List Path}

/-! ## The room for a walk -/

theorem countP_lt_of_mem {α : Type} {kept further : α → Bool} {elements : List α} {element : α}
    (implies : ∀ other ∈ elements, kept other = true → further other = true)
    (member : element ∈ elements) (isFurther : further element = true)
    (notKept : kept element = false) : elements.countP kept < elements.countP further := by
  have inFurther : element ∈ elements.filter further := List.mem_filter.mpr ⟨member, isFurther⟩
  have sameCount : elements.countP kept = (elements.filter further).countP kept := by
    rw [List.countP_filter]
    apply List.countP_congr
    intro other isMember
    constructor
    · intro isKept
      rw [isKept, implies other isMember isKept]
      rfl
    · intro both
      exact (Bool.and_eq_true_iff.mp both).1
  rw [sameCount, List.countP_eq_length_filter (p := further)]
  exact List.countP_lt_length_iff.mpr ⟨element, inFurther, notKept⟩

/-- The key of a directory. -/
def directoryKey? (entry : FileKey × FileEntry) : Option FileKey :=
  match entry.2 with
  | .directory => some entry.1
  | _ => none

/-- The keys of all directories. -/
def directoryKeys (files : FileSystem) : List FileKey :=
  [] :: files.entries.entries.filterMap directoryKey?

theorem mem_directoryKeys (isThere : files.lookup key = some .directory) :
    key ∈ files.directoryKeys := by
  by_cases isRoot : key = []
  · rw [isRoot]
    exact List.mem_cons_self
  · exact List.mem_cons_of_mem _ (List.mem_filterMap.mpr ⟨_, mem_of_lookup isRoot isThere, rfl⟩)

theorem length_directoryKeys (files : FileSystem) :
    files.directoryKeys.length ≤ files.entries.size + 1 :=
  Nat.succ_le_succ (List.length_filterMap_le _ _)

def isOpen (openDirectories : List (Path × FileKey)) (key : FileKey) : Bool :=
  openDirectories.any (fun level => level.2 == key)

/-- The number of directories that are not open. -/
def closedCount (files : FileSystem) (openDirectories : List (Path × FileKey)) : Nat :=
  files.directoryKeys.countP (fun key => !isOpen openDirectories key)

/-- The number of directories below a key. -/
def countBelow (files : FileSystem) (key : FileKey) : Nat :=
  files.directoryKeys.countP (fun other => key.isPrefixOf other && other != key)

/-- The number of directories that a walk can still enter: for each one that is not open, as
many as there are, and then those below. -/
def room (files : FileSystem) (openDirectories : List (Path × FileKey)) (key : FileKey) : Nat :=
  files.closedCount openDirectories * (files.directoryKeys.length + 1) + files.countBelow key

theorem closedCount_cons_le (files : FileSystem) (level : Path × FileKey)
    (openDirectories : List (Path × FileKey)) :
    files.closedCount (level :: openDirectories) ≤ files.closedCount openDirectories := by
  apply List.countP_mono_left
  intro other _ isClosed
  simp only [isOpen, List.any_cons, Bool.not_or, Bool.and_eq_true] at isClosed
  exact isClosed.2

theorem closedCount_cons_lt (isThere : files.lookup target = some .directory)
    (isClosed : isOpen openDirectories target = false) :
    files.closedCount ((path, target) :: openDirectories) < files.closedCount openDirectories := by
  refine countP_lt_of_mem ?_ (mem_directoryKeys isThere) ?_ ?_
  · intro other _ staysClosed
    simp only [isOpen, List.any_cons, Bool.not_or, Bool.and_eq_true] at staysClosed
    exact staysClosed.2
  · rw [isClosed]
    rfl
  · simp [isOpen]

theorem countBelow_child_lt (isThere : files.lookup (key ++ [name]) = some .directory) :
    files.countBelow (key ++ [name]) < files.countBelow key := by
  refine countP_lt_of_mem ?_ (mem_directoryKeys isThere) ?_ ?_
  · intro other _ isBelow
    obtain ⟨isPrefix, isOther⟩ := Bool.and_eq_true_iff.mp isBelow
    obtain ⟨rest, rfl⟩ := List.isPrefixOf_iff_prefix.mp isPrefix
    have startsWith : key <+: key ++ [name] ++ rest := ⟨[name] ++ rest, by simp⟩
    rw [List.isPrefixOf_iff_prefix.mpr startsWith]
    simp
  · rw [List.isPrefixOf_iff_prefix.mpr (List.prefix_append key [name])]
    simp
  · simp

theorem countBelow_le (files : FileSystem) (key : FileKey) :
    files.countBelow key ≤ files.directoryKeys.length :=
  List.countP_le_length

theorem room_directory_lt (isThere : files.lookup (key ++ [name]) = some .directory) :
    files.room ((path, key ++ [name]) :: openDirectories) (key ++ [name]) <
      files.room openDirectories key := by
  unfold room
  exact Nat.add_lt_add_of_le_of_lt
    (Nat.mul_le_mul_right _ (files.closedCount_cons_le _ openDirectories))
    (countBelow_child_lt isThere)

theorem room_link_lt (isThere : files.lookup target = some .directory)
    (isClosed : isOpen openDirectories target = false) :
    files.room ((path, target) :: openDirectories) target < files.room openDirectories key := by
  have closes : files.closedCount ((path, target) :: openDirectories) + 1 ≤
      files.closedCount openDirectories := closedCount_cons_lt isThere isClosed
  have bounded := files.countBelow_le target
  unfold room
  calc files.closedCount ((path, target) :: openDirectories) * (files.directoryKeys.length + 1) +
        files.countBelow target
      < (files.closedCount ((path, target) :: openDirectories) + 1) *
          (files.directoryKeys.length + 1) := by
        rw [Nat.succ_mul]
        omega
    _ ≤ files.closedCount openDirectories * (files.directoryKeys.length + 1) :=
        Nat.mul_le_mul_right _ closes
    _ ≤ files.closedCount openDirectories * (files.directoryKeys.length + 1) +
          files.countBelow key := Nat.le_add_right _ _

/-- A walk from its start has less room than the bound on its depth. -/
theorem room_lt_depthLimit (files : FileSystem) (openDirectories : List (Path × FileKey))
    (key : FileKey) : files.room openDirectories key < files.depthLimit := by
  have few := files.length_directoryKeys
  have below := files.countBelow_le key
  have closed : files.closedCount openDirectories ≤ files.directoryKeys.length :=
    List.countP_le_length
  unfold room depthLimit
  calc files.closedCount openDirectories * (files.directoryKeys.length + 1) +
        files.countBelow key
      ≤ files.directoryKeys.length * (files.directoryKeys.length + 1) +
          files.directoryKeys.length := Nat.add_le_add (Nat.mul_le_mul_right _ closed) below
    _ < (files.directoryKeys.length + 1) * (files.directoryKeys.length + 1) := by
        rw [Nat.succ_mul]
        omega
    _ ≤ (files.entries.size + 2) * (files.entries.size + 2) :=
        Nat.mul_le_mul (by omega) (by omega)

/-! ## The steps of a walk -/

/-- What a walk lists at an entry of a directory. -/
def filesAt (files : FileSystem) (depth : Nat) (openDirectories : List (Path × FileKey))
    (directory : Path) (key : FileKey) (child : String × FileEntry) :
    Except WalkFailure (List Path) := do
  let path := directory.child child.1
  match ← files.stepAt openDirectories path (key ++ [child.1]) child.2 with
  | .take => pure [path]
  | .enter target => files.filesIn depth ((path, target) :: openDirectories) path target

theorem filesIn_succ_eq_ok :
    files.filesIn (depth + 1) openDirectories directory key = .ok listed ↔
      ∃ inner, List.Forall₂ (fun child found =>
          files.filesAt depth openDirectories directory key child = .ok found)
            (files.children key) inner ∧
        listed = inner.flatten := by
  have unfolded : files.filesIn (depth + 1) openDirectories directory key = (do
      let inner ← (files.children key).mapM
        (files.filesAt depth openDirectories directory key)
      pure inner.flatten) := rfl
  rw [unfolded, bind_eq_ok]
  constructor
  · rintro ⟨inner, visited, finished⟩
    exact ⟨inner, mapM_eq_ok.mp visited, (Except.ok.inj finished).symm⟩
  · rintro ⟨inner, visited, rfl⟩
    exact ⟨inner, mapM_eq_ok.mpr visited, rfl⟩

/-- At an entry a walk lists the entry or goes into it. -/
theorem filesAt_eq_ok {child : String × FileEntry} :
    files.filesAt depth openDirectories directory key child = .ok listed ↔
      files.stepAt openDirectories (directory.child child.1) (key ++ [child.1]) child.2 =
          .ok .take ∧
        listed = [directory.child child.1] ∨
      ∃ target, files.stepAt openDirectories (directory.child child.1) (key ++ [child.1]) child.2 =
          .ok (.enter target) ∧
        files.filesIn depth ((directory.child child.1, target) :: openDirectories)
          (directory.child child.1) target = .ok listed := by
  unfold filesAt
  rw [bind_eq_ok]
  constructor
  · rintro ⟨step, isStep, finished⟩
    cases step with
    | take => exact .inl ⟨isStep, (Except.ok.inj finished).symm⟩
    | enter target => exact .inr ⟨target, isStep, finished⟩
  · rintro (⟨isStep, rfl⟩ | ⟨target, isStep, finished⟩)
    · exact ⟨.take, isStep, rfl⟩
    · exact ⟨.enter target, isStep, finished⟩

theorem mem_children {held : FileEntry} (isThere : files.lookup (key ++ [name]) = some held) :
    (name, held) ∈ files.children key := by
  have member := mem_of_lookup (List.append_ne_nil_of_right_ne_nil key (List.cons_ne_nil name []))
    isThere
  refine List.mem_filterMap.mpr ⟨_, member, ?_⟩
  simp [nameBelow?]

theorem lookup_of_mem_children {child : String × FileEntry} (member : child ∈ files.children key) :
    files.lookup (key ++ [child.1]) = some child.2 := by
  obtain ⟨⟨other, held⟩, isEntry, isBelow⟩ := List.mem_filterMap.mp member
  obtain ⟨name, isName, rfl⟩ := Option.map_eq_some_iff.mp isBelow
  have isKey : other = key ++ [name] := by
    unfold nameBelow? at isName
    split at isName
    · rename_i last isLast
      split at isName
      · rename_i isHolder
        obtain ⟨above, rfl⟩ := List.getLast?_eq_some_iff.mp isLast
        rw [List.dropLast_concat] at isHolder
        rw [eq_of_beq isHolder, Option.some.inj isName]
      · cases isName
    · cases isName
  obtain rfl := isKey
  have found := OrderedMap.get?_of_mem isEntry
  cases key with
  | nil => exact found
  | cons head tail => exact found

theorem WellFormed.entryName_of_mem_children (wellFormed : WellFormed files)
    {child : String × FileEntry} (member : child ∈ files.children key) :
    IsEntryName child.1 := by
  obtain ⟨entry, isEntry, isBelow⟩ := List.mem_filterMap.mp member
  obtain ⟨name, isName, rfl⟩ := Option.map_eq_some_iff.mp isBelow
  apply wellFormed.named entry isEntry
  unfold nameBelow? at isName
  split at isName
  · rename_i last isLast
    split at isName
    · rw [isLast]
      exact isName
    · cases isName
  · cases isName

/-! ## What a walk lists -/

/-- Every listed path goes down from the directory by names. -/
theorem descends_of_mem_filesIn (wellFormed : WellFormed files)
    (walked : files.filesIn depth openDirectories directory key = .ok listed)
    (member : path ∈ listed) :
    ∃ name names, (∀ other ∈ name :: names, IsEntryName other) ∧
      path = directory.descend (name :: names) := by
  induction depth generalizing openDirectories directory key listed with
  | zero =>
      rw [← Except.ok.inj walked] at member
      cases member
  | succ depth inductionHypothesis =>
      obtain ⟨inner, visits, rfl⟩ := filesIn_succ_eq_ok.mp walked
      obtain ⟨found, isFound, inFound⟩ := List.mem_flatten.mp member
      obtain ⟨child, isChild, visited⟩ := exists_left visits isFound
      have entryName := wellFormed.entryName_of_mem_children isChild
      rcases filesAt_eq_ok.mp visited with ⟨_, rfl⟩ | ⟨target, _, walkedChild⟩
      · refine ⟨child.1, [], ?_, List.mem_singleton.mp inFound⟩
        exact List.forall_mem_singleton.mpr entryName
      · obtain ⟨name, names, entryNames, rfl⟩ := inductionHypothesis walkedChild inFound
        exact ⟨child.1, name :: names, List.forall_mem_cons.mpr ⟨entryName, entryNames⟩, rfl⟩

theorem nonempty_of_entryAt {entry : FileEntry} (found : files.entryAt path = .ok (key, entry)) :
    path.text ≠ "" := by
  have usable := (locate_eq_ok_iff.mp (entryAt_eq_ok_iff.mp found)).1
  exact fun isEmpty => usable.isNonempty (String.isEmpty_iff.mpr isEmpty)

/-- A way down leads somewhere only if it starts from a directory. -/
theorem directory_of_descend {entry : FileEntry} (nonempty : directory.text ≠ "")
    (entryNames : ∀ other ∈ name :: names, IsEntryName other)
    (found : files.entryAt (directory.descend (name :: names)) = .ok (key, entry)) :
    ∃ holder, files.entryAt directory = .ok (holder, .directory) := by
  induction names generalizing directory name with
  | nil =>
      obtain ⟨holder, isHolder, _⟩ :=
        entryAt_of_child (entryNames name List.mem_cons_self) nonempty found
      exact ⟨holder, isHolder⟩
  | cons second rest inductionHypothesis =>
      obtain ⟨entryName, further⟩ := List.forall_mem_cons.mp entryNames
      obtain ⟨inside, isInside⟩ := inductionHypothesis
        (Path.text_child_ne_empty entryName) further found
      obtain ⟨holder, isHolder, _⟩ := entryAt_of_child entryName nonempty isInside
      exact ⟨holder, isHolder⟩

/-- The step at the name of a file lists it. -/
theorem stepAt_file (openDirectories : List (Path × FileKey)) (key : FileKey) {held : FileEntry}
    {fileKey : FileKey} {content : ByteArray}
    (found : files.entryAt path = .ok (fileKey, .file content))
    (same : (∀ target, held ≠ .link target) → FileEntry.file content = held) :
    files.stepAt openDirectories path key held = .ok .take := by
  cases held with
  | file other => rfl
  | directory => cases same (fun _ => FileEntry.noConfusion)
  | link target =>
      unfold stepAt
      rw [found]

/-- At a link a walk enters the directory that the link leads to unless it is open, and takes
anything else. -/
theorem stepAt_link_eq_ok {text : String} {step : Step} :
    files.stepAt openDirectories path key (.link text) = .ok step ↔
      ∃ reached entry, files.entryAt path = .ok (reached, entry) ∧
        (entry = .directory ∧ isOpen openDirectories reached = false ∧ step = .enter reached ∨
          entry ≠ .directory ∧ step = .take) := by
  constructor
  · intro isStep
    unfold stepAt at isStep
    rcases found : files.entryAt path with failure | ⟨reached, entry⟩
    · rw [found] at isStep
      cases isStep
    · rw [found] at isStep
      cases entry with
      | directory =>
          dsimp only at isStep
          split at isStep
          · cases isStep
          · rename_i isNew
            have isClosed : isOpen openDirectories reached = false :=
              List.any_eq_false.mpr (fun level member => List.find?_eq_none.mp isNew level member)
            exact ⟨reached, _, rfl, .inl ⟨rfl, isClosed, (Except.ok.inj isStep).symm⟩⟩
      | file content =>
          exact ⟨reached, _, rfl, .inr ⟨FileEntry.noConfusion, (Except.ok.inj isStep).symm⟩⟩
      | link target =>
          exact ⟨reached, _, rfl, .inr ⟨FileEntry.noConfusion, (Except.ok.inj isStep).symm⟩⟩
  · rintro ⟨reached, entry, found, ⟨rfl, isClosed, rfl⟩ | ⟨notDirectory, rfl⟩⟩
    · have isNew : openDirectories.find? (fun level => level.2 == reached) = none :=
        List.find?_eq_none.mpr (fun level member => List.any_eq_false.mp isClosed level member)
      unfold stepAt
      rw [found]
      dsimp only
      rw [isNew]
    · unfold stepAt
      rw [found]
      cases entry with
      | directory => exact absurd rfl notDirectory
      | file content => rfl
      | link target => rfl

/-- A step that leads into a directory leaves less room. -/
theorem room_of_enter {held : FileEntry} (wellFormed : WellFormed files)
    (isThere : files.lookup (key ++ [name]) = some held)
    (enters : files.stepAt openDirectories path (key ++ [name]) held = .ok (.enter target)) :
    files.room ((path, target) :: openDirectories) target < files.room openDirectories key := by
  cases held with
  | file old => cases enters
  | directory =>
      obtain rfl := Step.enter.inj (Except.ok.inj enters)
      exact room_directory_lt isThere
  | link text =>
      obtain ⟨reached, entry, found, ⟨rfl, isClosed, isStep⟩ | ⟨_, isStep⟩⟩ :=
        stepAt_link_eq_ok.mp enters
      · obtain rfl := Step.enter.inj isStep
        exact room_link_lt (lookup_of_entryAt_directory wellFormed found) isClosed
      · cases isStep

/-- The step at the name of a directory enters it and leaves less room, or it is a failure. -/
theorem stepAt_directory {held : FileEntry} {step : Step} (wellFormed : WellFormed files)
    (found : files.entryAt path = .ok (target, .directory))
    (isThere : files.lookup (key ++ [name]) = some held)
    (same : (∀ text, held ≠ .link text) → target = key ++ [name] ∧ FileEntry.directory = held)
    (isStep : files.stepAt openDirectories path (key ++ [name]) held = .ok step) :
    step = .enter target ∧
      files.room ((path, target) :: openDirectories) target < files.room openDirectories key := by
  have enters : step = .enter target := by
    cases held with
    | file other => cases (same (fun _ => FileEntry.noConfusion)).2
    | directory =>
        rw [(same (fun _ => FileEntry.noConfusion)).1]
        exact (Except.ok.inj isStep).symm
    | link text =>
        obtain ⟨reached, entry, isReached, outcome⟩ := stepAt_link_eq_ok.mp isStep
        obtain ⟨rfl, rfl⟩ := Prod.mk.inj (Except.ok.inj (found.symm.trans isReached))
        rcases outcome with ⟨_, _, isStep⟩ | ⟨notDirectory, _⟩
        · exact isStep
        · exact absurd rfl notDirectory
  rw [enters] at isStep
  exact ⟨enters, room_of_enter wellFormed isThere isStep⟩

/-- A path down from the directory that leads to a file is listed by a walk whose depth
exceeds its room. -/
theorem mem_filesIn (wellFormed : WellFormed files)
    (isHere : files.entryAt directory = .ok (key, .directory))
    (enough : files.room openDirectories key < depth)
    (walked : files.filesIn depth openDirectories directory key = .ok listed)
    (entryNames : ∀ other ∈ name :: names, IsEntryName other) {fileKey : FileKey}
    {content : ByteArray}
    (found : files.entryAt (directory.descend (name :: names)) = .ok (fileKey, .file content)) :
    directory.descend (name :: names) ∈ listed := by
  induction names generalizing directory key depth openDirectories name listed with
  | nil =>
      obtain ⟨depth, rfl⟩ := Nat.exists_eq_succ_of_ne_zero (Nat.ne_zero_of_lt enough)
      obtain ⟨inner, visits, rfl⟩ := filesIn_succ_eq_ok.mp walked
      have entryName := entryNames name List.mem_cons_self
      obtain ⟨holder, isHolder, held, isThere, same⟩ :=
        entryAt_of_child entryName (nonempty_of_entryAt isHere) found
      obtain rfl : holder = key := by
        rw [isHere] at isHolder
        exact (Prod.mk.inj (Except.ok.inj isHolder)).1.symm
      obtain ⟨inside, isInside, visited⟩ := exists_right visits (mem_children isThere)
      have takes := stepAt_file openDirectories (holder ++ [name]) found
        (fun notLink => (same notLink).2)
      rcases filesAt_eq_ok.mp visited with ⟨_, rfl⟩ | ⟨target, enters, _⟩
      · exact List.mem_flatten.mpr ⟨_, isInside, List.mem_singleton.mpr rfl⟩
      · cases takes.symm.trans enters
  | cons second rest inductionHypothesis =>
      obtain ⟨depth, rfl⟩ := Nat.exists_eq_succ_of_ne_zero (Nat.ne_zero_of_lt enough)
      obtain ⟨inner, visits, rfl⟩ := filesIn_succ_eq_ok.mp walked
      obtain ⟨entryName, further⟩ := List.forall_mem_cons.mp entryNames
      obtain ⟨target, isTarget⟩ :=
        directory_of_descend (Path.text_child_ne_empty entryName) further found
      obtain ⟨holder, isHolder, held, isThere, same⟩ :=
        entryAt_of_child entryName (nonempty_of_entryAt isHere) isTarget
      obtain rfl : holder = key := by
        rw [isHere] at isHolder
        exact (Prod.mk.inj (Except.ok.inj isHolder)).1.symm
      obtain ⟨inside, isInside, visited⟩ := exists_right visits (mem_children isThere)
      rcases filesAt_eq_ok.mp visited with ⟨takes, _⟩ | ⟨entered, enters, walkedChild⟩
      · cases (stepAt_directory wellFormed isTarget isThere same takes).1
      · obtain ⟨isEntered, lessRoom⟩ := stepAt_directory wellFormed isTarget isThere same enters
        obtain rfl := Step.enter.inj isEntered
        have inInside := inductionHypothesis isTarget
          (Nat.lt_of_lt_of_le lessRoom (Nat.le_of_lt_succ enough)) walkedChild further found
        exact List.mem_flatten.mpr ⟨_, isInside, inInside⟩

/-! ## Files below a directory -/

/-- The path goes down from a directory by names of entries. -/
def IsBelow (directory path : Path) : Prop :=
  ∃ name names, (∀ other ∈ name :: names, IsEntryName other) ∧
    path = directory.descend (name :: names)

theorem isBelow_of_mem_filesBelow (wellFormed : WellFormed files)
    (walked : files.filesBelow directory = .ok listed) (member : path ∈ listed) :
    IsBelow directory path := by
  unfold filesBelow at walked
  split at walked
  · exact descends_of_mem_filesIn wellFormed walked member
  · rw [← Except.ok.inj walked] at member
    cases member
  · cases walked

/-- A walk lists every path below its directory that leads to a file. -/
theorem mem_filesBelow (wellFormed : WellFormed files)
    (walked : files.filesBelow directory = .ok listed) (isBelow : IsBelow directory path)
    (nonempty : directory.text ≠ "") (isFile : files.isFile path = true) : path ∈ listed := by
  obtain ⟨name, names, entryNames, rfl⟩ := isBelow
  obtain ⟨fileKey, content, found⟩ := isFile_iff_entryAt.mp isFile
  obtain ⟨key, isHere⟩ := directory_of_descend nonempty entryNames found
  unfold filesBelow at walked
  rw [isHere] at walked
  exact mem_filesIn wellFormed isHere (files.room_lt_depthLimit _ key) walked entryNames found

end FactoryProxy.FileSystem
