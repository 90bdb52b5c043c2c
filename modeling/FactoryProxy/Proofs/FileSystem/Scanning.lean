import FactoryProxy.Proofs.ClassIndex.Rescan
import FactoryProxy.Proofs.FileSystem.Walking
import FactoryProxy.Proofs.OrderedMap.Spelling

/-!
Contract: two scans of the same directories that find the same paths spell them alike.

A path is listed as it is spelled below the first directory under which it is found. It
is found below a directory whenever some spelling of it leads to a file, so which
directory is the first does not change from one scan to the next.

Owns: the first spelling of a path in a scan, and the agreement of two scans.
-/

namespace FactoryProxy.SourceFiles

open FileSystem Sequencing

variable {files later : FileSystem} {roots : List Path} {exclude : List String}
  {patterns : List (List Glob.Token)} {root path target : Path}
  {paths laterPaths scan laterScan : List Path}

/-! ## One directory -/

theorem below_eq_ok : below files root = .ok paths ↔ files.isDirectory root = true ∧
    (isStandardInput root = true ∧ paths = [] ∨
      isStandardInput root = false ∧ files.filesBelow root = .ok paths) := by
  unfold below
  cases files.isDirectory root with
  | false => simp
  | true =>
      cases isStandardInput root with
      | false => simp [mapError_eq_ok]
      | true => simp [eq_comm]

theorem isBelow_of_mem_below (wellFormed : WellFormed files)
    (isFound : below files root = .ok paths) (member : path ∈ paths) :
    root.text ≠ "" ∧ isStandardInput root = false ∧ IsBelow root path := by
  obtain ⟨isDirectory, ⟨_, rfl⟩ | ⟨notInput, walked⟩⟩ := below_eq_ok.mp isFound
  · cases member
  · refine ⟨?_, notInput, isBelow_of_mem_filesBelow wellFormed walked member⟩
    obtain ⟨_, isHere⟩ := isDirectory_iff.mp isDirectory
    exact nonempty_of_entryAt isHere

theorem mem_below (wellFormed : WellFormed files) (isFound : below files root = .ok paths)
    (nonempty : root.text ≠ "") (notInput : isStandardInput root = false)
    (isBelow : IsBelow root path) (isFile : files.isFile path = true) : path ∈ paths := by
  obtain ⟨_, ⟨isInput, _⟩ | ⟨_, walked⟩⟩ := below_eq_ok.mp isFound
  · rw [notInput] at isInput
    cases isInput
  · exact mem_filesBelow wellFormed walked isBelow nonempty isFile

theorem isFile_of_counts (counted : counts files patterns path = true) :
    files.isFile path = true := by
  simp only [counts, Bool.and_eq_true] at counted
  exact counted.1.1

/-- Besides leading to a file, counting depends on the text of the path alone. -/
theorem counts_of_isFile (counted : counts files patterns path = true)
    (isFile : later.isFile path = true) : counts later patterns path = true := by
  simp only [counts, Bool.and_eq_true] at counted ⊢
  exact ⟨⟨isFile, counted.1.2⟩, counted.2⟩

/-- Only one path below a directory has given components. -/
theorem eq_of_isBelow {left right : Path} (isLeft : IsBelow root left)
    (isRight : IsBelow root right) (same : left.components = right.components) :
    left = right := by
  obtain ⟨leftName, leftNames, leftEntries, rfl⟩ := isLeft
  obtain ⟨rightName, rightNames, rightEntries, rfl⟩ := isRight
  rw [Path.descend_injective leftEntries rightEntries same]

/-- A path below a directory that led to a file leads to one later if some spelling does. -/
theorem isFile_respelled (isBelow : IsBelow root path) (wasFile : files.isFile path = true)
    (same : target.components = path.components) (isFile : later.isFile target = true) :
    later.isFile path = true := by
  obtain ⟨name, names, entryNames, rfl⟩ := isBelow
  obtain ⟨last, lastOf⟩ : ∃ last, (name :: names).getLast? = some last :=
    ⟨_, List.getLast?_cons⟩
  obtain ⟨above, isSplit⟩ := List.getLast?_eq_some_iff.mp lastOf
  have isChild : root.descend (name :: names) = (root.descend above).child last := by
    rw [isSplit, Path.descend, List.foldl_append]
    rfl
  have entryName : IsEntryName last := entryNames last (List.mem_of_getLast? lastOf)
  obtain ⟨oldKey, old, wasThere⟩ := isFile_iff_entryAt.mp wasFile
  obtain ⟨key, content, isThere⟩ := isFile_iff_entryAt.mp isFile
  have usable := (locate_eq_ok_iff.mp (entryAt_eq_ok_iff.mp wasThere)).1
  rw [isChild] at usable same ⊢
  exact isFile_iff_entryAt.mpr
    ⟨key, content, entryAt_respelled entryName usable same isThere⟩

/-- What counts below a directory. -/
def counted (files : FileSystem) (patterns : List (List Glob.Token)) (paths : List Path) :
    List Path :=
  paths.filter (counts files patterns)

/-- The first path with given components. -/
def spelling? (target : Path) (paths : List Path) : Option Path :=
  paths.find? (fun path => compare target path == .eq)

theorem mem_of_spelling? (isFirst : spelling? target paths = some path) :
    path ∈ paths ∧ target.components = path.components := by
  unfold spelling? at isFirst
  have isSpelling := List.find?_some isFirst
  exact ⟨List.mem_of_find?_eq_some isFirst, Path.compare_eq_iff.mp (eq_of_beq isSpelling)⟩

theorem exists_spelling? (member : path ∈ paths) (same : target.components = path.components) :
    ∃ first, spelling? target paths = some first := by
  apply Option.isSome_iff_exists.mp
  apply List.find?_isSome.mpr
  exact ⟨path, member, beq_iff_eq.mpr (Path.compare_eq_iff.mpr same)⟩

/-- What counts below a directory counts later if some spelling of it leads to a file. -/
theorem mem_counted_later (wellFormed : WellFormed files) (laterFormed : WellFormed later)
    (isFound : below files root = .ok paths) (isFoundLater : below later root = .ok laterPaths)
    (member : path ∈ counted files patterns paths)
    (same : target.components = path.components) (isFile : later.isFile target = true) :
    path ∈ counted later patterns laterPaths := by
  obtain ⟨isListed, counts⟩ := List.mem_filter.mp member
  obtain ⟨nonempty, notInput, isBelow⟩ := isBelow_of_mem_below wellFormed isFound isListed
  have isFileLater := isFile_respelled isBelow (isFile_of_counts counts) same isFile
  exact List.mem_filter.mpr
    ⟨mem_below laterFormed isFoundLater nonempty notInput isBelow isFileLater,
      counts_of_isFile counts isFileLater⟩

/-- Two scans below a directory agree on a path that some spelling leads to in both. -/
theorem spelling?_below (patterns : List (List Glob.Token)) (wellFormed : WellFormed files)
    (laterFormed : WellFormed later)
    (isFound : below files root = .ok paths) (isFoundLater : below later root = .ok laterPaths)
    (wasFile : files.isFile path = true) (isFile : later.isFile target = true)
    (same : target.components = path.components) :
    spelling? target (counted files patterns paths) =
      spelling? target (counted later patterns laterPaths) := by
  cases isFirst : spelling? target (counted files patterns paths) with
  | some first =>
      obtain ⟨member, sameFirst⟩ := mem_of_spelling? isFirst
      obtain ⟨second, isSecond⟩ := exists_spelling?
        (mem_counted_later wellFormed laterFormed isFound isFoundLater member sameFirst isFile)
        sameFirst
      obtain ⟨memberLater, sameSecond⟩ := mem_of_spelling? isSecond
      have isBelow := (isBelow_of_mem_below wellFormed isFound (List.mem_filter.mp member).1).2.2
      have isBelowLater :=
        (isBelow_of_mem_below laterFormed isFoundLater (List.mem_filter.mp memberLater).1).2.2
      rw [isSecond, eq_of_isBelow isBelow isBelowLater (sameFirst.symm.trans sameSecond)]
  | none =>
      cases isSecond : spelling? target (counted later patterns laterPaths) with
      | none => rfl
      | some second =>
          obtain ⟨memberLater, sameSecond⟩ := mem_of_spelling? isSecond
          have member := mem_counted_later laterFormed wellFormed isFoundLater isFound memberLater
            (same.symm.trans sameSecond) wasFile
          obtain ⟨first, isFirst'⟩ := exists_spelling? member sameSecond
          rw [isFirst] at isFirst'
          cases isFirst'

/-! ## All directories -/

/-- A scan lists the counted paths below all directories, each in its first spelling. -/
theorem find_eq_ok : find files roots exclude = .ok scan ↔
    ∃ patterns listed, compile exclude = .ok patterns ∧
      List.Forall₂ (fun root paths => below files root = .ok paths) roots listed ∧
      scan = (OrderedSet.ofList (counted files patterns listed.flatten)).toList := by
  unfold find
  rw [bind_eq_ok]
  constructor
  · rintro ⟨patterns, isCompiled, walking⟩
    obtain ⟨listed, isListed, finished⟩ := bind_eq_ok.mp walking
    exact ⟨patterns, listed, isCompiled, mapM_eq_ok.mp isListed, (Except.ok.inj finished).symm⟩
  · rintro ⟨patterns, listed, isCompiled, isListed, rfl⟩
    exact ⟨patterns, isCompiled, bind_eq_ok.mpr ⟨listed, mapM_eq_ok.mpr isListed, rfl⟩⟩

theorem spelling?_all (wellFormed : WellFormed files) (laterFormed : WellFormed later)
    {listed laterListed : List (List Path)}
    (isFound : List.Forall₂ (fun root paths => below files root = .ok paths) roots listed)
    (isFoundLater :
      List.Forall₂ (fun root paths => below later root = .ok paths) roots laterListed)
    (wasFile : files.isFile path = true) (isFile : later.isFile target = true)
    (same : target.components = path.components) :
    spelling? target (counted files patterns listed.flatten) =
      spelling? target (counted later patterns laterListed.flatten) := by
  induction isFound generalizing laterListed with
  | nil =>
      cases isFoundLater
      rfl
  | cons isHead _ inductionHypothesis =>
      obtain ⟨laterHead, laterTail, isHeadLater, isTailLater, rfl⟩ :=
        List.forall₂_cons_left_iff.mp isFoundLater
      have sameHead := spelling?_below patterns wellFormed laterFormed isHead
        isHeadLater wasFile isFile same
      have sameTail := inductionHypothesis isTailLater
      unfold spelling? counted at sameHead sameTail ⊢
      rw [List.flatten_cons, List.flatten_cons, List.filter_append, List.filter_append,
        List.find?_append, List.find?_append, sameHead, sameTail]

/-- A path of a scan is the first spelling below the directories. -/
theorem spelling?_of_mem_find (target : Path) {listed : List (List Path)}
    (member : path ∈ (OrderedSet.ofList (counted files patterns listed.flatten)).toList)
    (same : target.components = path.components) :
    spelling? target (counted files patterns listed.flatten) = some path := by
  obtain ⟨entry, isEntry, rfl⟩ := List.mem_map.mp member
  have found := OrderedMap.entry?_of_mem isEntry (Path.compare_eq_iff.mpr same)
  rw [OrderedSet.entry?_ofList] at found
  obtain ⟨first, isFirst, rfl⟩ := Option.map_eq_some_iff.mp found
  exact isFirst

/-- Two scans that find the same paths spell them alike. -/
theorem find_eq_of_samePaths (wellFormed : WellFormed files) (laterFormed : WellFormed later)
    (isFound : find files roots exclude = .ok scan)
    (isFoundLater : find later roots exclude = .ok laterScan)
    (same : List.Forall₂ DependencySet.SamePath laterScan scan) : laterScan = scan := by
  have areFiles := fun (path : Path) (member : path ∈ scan) => isFile_of_find isFound member
  have areLaterFiles := fun (path : Path) (member : path ∈ laterScan) =>
    isFile_of_find isFoundLater member
  obtain ⟨patterns, listed, isCompiled, isListed, rfl⟩ := find_eq_ok.mp isFound
  obtain ⟨laterPatterns, laterListed, isCompiledLater, isListedLater, rfl⟩ :=
    find_eq_ok.mp isFoundLater
  obtain rfl := Except.ok.inj (isCompiled.symm.trans isCompiledLater)
  have alike := forall₂_of_mem same (fun laterPath memberLater path member samePath => by
    have first := spelling?_of_mem_find laterPath member samePath
    have second := spelling?_of_mem_find laterPath memberLater rfl
    rw [spelling?_all wellFormed laterFormed isListed isListedLater
      (areFiles path member) (areLaterFiles laterPath memberLater) samePath] at first
    exact Option.some.inj (second.symm.trans first))
  rwa [List.forall₂_eq_eq_eq] at alike

end FactoryProxy.SourceFiles
