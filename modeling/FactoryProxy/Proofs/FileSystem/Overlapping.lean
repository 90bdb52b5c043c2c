import FactoryProxy.Proofs.FileSystem.Linkless

/-!
Contract: scans of directories that overlap.

A scan lists what counts below its directories, of paths with the same components one. Two
listed paths can still lead to one file: without links that is so exactly if one directory
lies in another, or is the same one, and its components do not continue those of the other
by the names in between.

Owns: what a scan lists, directories that are spelled alike, and when a scan lists every
file once.
-/

namespace FactoryProxy.SourceFiles

open FileSystem Sequencing

variable {files : FileSystem} {roots found : List Path} {exclude : List String}
  {patterns : List (List Glob.Token)} {root upper lower left right path : Path}
  {holder : FileKey} {between names : List String}

/-! ## What a scan lists -/

theorem exists_listing (isCompiled : compile exclude = .ok patterns)
    (isFound : find files roots exclude = .ok found) :
    ∃ listed, List.Forall₂ (fun root paths => below files root = .ok paths) roots listed ∧
      found = (OrderedSet.ofList (counted files patterns listed.flatten)).toList := by
  obtain ⟨compiled, listed, isCompiled', isListed, isSet⟩ := find_eq_ok.mp isFound
  obtain rfl := Except.ok.inj (isCompiled.symm.trans isCompiled')
  exact ⟨listed, isListed, isSet⟩

/-- A listed path counts and goes down from one of the directories. -/
theorem isBelow_of_mem_find (wellFormed : WellFormed files)
    (isCompiled : compile exclude = .ok patterns)
    (isFound : find files roots exclude = .ok found) (member : path ∈ found) :
    counts files patterns path = true ∧
      ∃ root ∈ roots, isStandardInput root = false ∧ IsBelow root path := by
  obtain ⟨listed, isListed, rfl⟩ := exists_listing isCompiled isFound
  obtain ⟨inListed, isCounted⟩ := List.mem_filter.mp (OrderedSet.mem_of_mem_toList_ofList member)
  obtain ⟨paths, isPaths, inPaths⟩ := List.mem_flatten.mp inListed
  obtain ⟨root, isRoot, isBelowRoot⟩ := exists_left isListed isPaths
  obtain ⟨_, notInput, isBelow⟩ := isBelow_of_mem_below wellFormed isBelowRoot inPaths
  exact ⟨isCounted, root, isRoot, notInput, isBelow⟩

/-- Whatever counts below one of the directories is listed in some spelling. -/
theorem exists_mem_find (wellFormed : WellFormed files)
    (isCompiled : compile exclude = .ok patterns)
    (isFound : find files roots exclude = .ok found) (isRoot : root ∈ roots)
    (notInput : isStandardInput root = false) (isBelow : IsBelow root path)
    (isCounted : counts files patterns path = true) :
    ∃ listed ∈ found, listed.components = path.components := by
  obtain ⟨listed, isListed, rfl⟩ := exists_listing isCompiled isFound
  obtain ⟨paths, isPaths, isBelowRoot⟩ := exists_right isListed isRoot
  obtain ⟨_, isHere⟩ := isDirectory_iff.mp (below_eq_ok.mp isBelowRoot).1
  have inPaths := mem_below wellFormed isBelowRoot (nonempty_of_entryAt isHere) notInput isBelow
    (isFile_of_counts isCounted)
  have inCounted : path ∈ counted files patterns listed.flatten :=
    List.mem_filter.mpr ⟨List.mem_flatten_of_mem isPaths inPaths, isCounted⟩
  obtain ⟨spelling, isSpelling, same⟩ := OrderedSet.covers_ofList _ path inCounted
  exact ⟨spelling, isSpelling, (Path.compare_eq_iff.mp same).symm⟩

/-- Listed paths with the same components are the same. -/
theorem eq_of_mem_find (isFound : find files roots exclude = .ok found) (isLeft : left ∈ found)
    (isRight : right ∈ found) (same : left.components = right.components) : left = right := by
  obtain ⟨patterns, listed, _, _, rfl⟩ := find_eq_ok.mp isFound
  have first := spelling?_of_mem_find left isLeft rfl
  have second := spelling?_of_mem_find left isRight same
  exact Option.some.inj (first.symm.trans second)

/-! ## Directories spelled alike -/

/-- If one directory is reached from another by names, and a file counts below both, its
components are those of the other and the names. -/
def SpelledAlike (files : FileSystem) (patterns : List (List Glob.Token)) (roots : List Path) :
    Prop :=
  ∀ upper ∈ roots, ∀ lower ∈ roots, isStandardInput upper = false →
    isStandardInput lower = false → ∀ holder between,
      files.directoryAt? upper = some holder → files.directoryAt? lower = some (holder ++ between) →
        ∀ names, (∀ name ∈ between ++ names, IsEntryName name) →
          counts files patterns (upper.descend (between ++ names)) = true →
            counts files patterns (lower.descend names) = true →
              lower.components = upper.components ++ between.map .normal

/-- Behind a common start, directories that are spelled by names are spelled alike. -/
theorem spelledAlike_of_start (noLinks : HasNoLinks files) {start : List Path.Component}
    (starts : ∀ root ∈ roots, ∃ names : List String,
      root.components = start ++ names.map .normal) :
    SpelledAlike files patterns roots := by
  intro upper isUpper lower isLower _ _ holder between upperHere lowerHere _ _ _ _
  obtain ⟨upperNames, upperStarts⟩ := starts upper isUpper
  obtain ⟨lowerNames, lowerStarts⟩ := starts lower isLower
  have upperKey := noLinks.key_of_entryAt (directoryAt?_eq_some.mp upperHere)
  have lowerKey := noLinks.key_of_entryAt (directoryAt?_eq_some.mp lowerHere)
  rw [upperStarts, destination_append, destination_names] at upperKey
  rw [lowerStarts, destination_append, destination_names, upperKey, List.append_assoc] at lowerKey
  have sameNames : upperNames ++ between = lowerNames := List.append_cancel_left lowerKey
  rw [upperStarts, lowerStarts, ← sameNames, List.map_append, List.append_assoc]

/-! ## Every file once -/

/-- What counts below a directory is listed, and leads to the key of the directory and the
names. -/
theorem exists_listed (wellFormed : WellFormed files) (noLinks : HasNoLinks files)
    (isCompiled : compile exclude = .ok patterns)
    (isFound : find files roots exclude = .ok found) (isRoot : root ∈ roots)
    (notInput : isStandardInput root = false)
    (isHere : files.entryAt root = .ok (holder, .directory))
    (entryNames : ∀ name ∈ names, IsEntryName name)
    (isCounted : counts files patterns (root.descend names) = true) :
    ∃ listed ∈ found, listed.components = root.components ++ names.map .normal ∧
      ∃ content, files.entryAt listed = .ok (holder ++ names, .file content) := by
  obtain ⟨key, content, isThere⟩ := isFile_iff_entryAt.mp (isFile_of_counts isCounted)
  have isBelow : IsBelow root (root.descend names) := by
    cases names with
    | nil => cases isHere.symm.trans isThere
    | cons name names => exact ⟨name, names, entryNames, rfl⟩
  obtain ⟨listed, isListed, same⟩ :=
    exists_mem_find wellFormed isCompiled isFound isRoot notInput isBelow isCounted
  obtain ⟨listedKey, listedContent, listedThere⟩ :=
    isFile_iff_entryAt.mp (isFile_of_find isFound isListed)
  obtain ⟨rfl, _⟩ := entryAt_of_components same listedThere isThere
  obtain rfl := noLinks.key_of_descend entryNames isHere isThere
  rw [Path.components_descend entryNames] at same
  exact ⟨listed, isListed, same, listedContent, listedThere⟩

/-- A listed path goes down by names from where one of the directories is. -/
theorem exists_root_of_mem_find (wellFormed : WellFormed files)
    (isCompiled : compile exclude = .ok patterns)
    (isFound : find files roots exclude = .ok found) (member : path ∈ found) :
    ∃ root ∈ roots, isStandardInput root = false ∧ ∃ holder names,
      files.entryAt root = .ok (holder, .directory) ∧ (∀ name ∈ names, IsEntryName name) ∧
        path = root.descend names ∧ counts files patterns (root.descend names) = true := by
  obtain ⟨isCounted, root, isRoot, notInput, name, names, entryNames, rfl⟩ :=
    isBelow_of_mem_find wellFormed isCompiled isFound member
  obtain ⟨listed, isListed, _⟩ := exists_listing isCompiled isFound
  obtain ⟨_, _, isBelowRoot⟩ := exists_right isListed isRoot
  obtain ⟨holder, isHere⟩ := isDirectory_iff.mp (below_eq_ok.mp isBelowRoot).1
  exact ⟨root, isRoot, notInput, holder, name :: names, isHere, entryNames, rfl, isCounted⟩

/-- Under directories that are spelled alike one file has one list of components. -/
theorem SpelledAlike.components_eq (alike : SpelledAlike files patterns roots)
    (isUpper : upper ∈ roots) (isLower : lower ∈ roots) (upperName : isStandardInput upper = false)
    (lowerName : isStandardInput lower = false)
    (upperHere : files.entryAt upper = .ok (holder, .directory))
    (lowerHere : files.entryAt lower = .ok (holder ++ between, .directory))
    (entryNames : ∀ name ∈ between ++ names, IsEntryName name)
    (upperCounts : counts files patterns (upper.descend (between ++ names)) = true)
    (lowerCounts : counts files patterns (lower.descend names) = true) :
    (upper.descend (between ++ names)).components = (lower.descend names).components := by
  have continues := alike upper isUpper lower isLower upperName lowerName holder between
    (directoryAt?_of_entryAt upperHere) (directoryAt?_of_entryAt lowerHere) names entryNames
    upperCounts lowerCounts
  rw [Path.components_descend entryNames,
    Path.components_descend (fun name member => entryNames name (List.mem_append_right _ member)),
    continues, List.map_append, List.append_assoc]

/-- Without links a scan lists every file once exactly if its directories are spelled alike. -/
theorem listedOnce_iff (wellFormed : WellFormed files) (noLinks : HasNoLinks files)
    (isCompiled : compile exclude = .ok patterns)
    (isFound : find files roots exclude = .ok found) :
    (∀ left ∈ found, ∀ right ∈ found, files.SameFile left right → left = right) ↔
      SpelledAlike files patterns roots := by
  constructor
  · intro once upper isUpper lower isLower upperName lowerName holder between upperHere lowerHere
      names entryNames upperCounts lowerCounts
    obtain ⟨first, isFirst, firstSpelled, _, firstThere⟩ := exists_listed wellFormed noLinks
      isCompiled isFound isUpper upperName (directoryAt?_eq_some.mp upperHere) entryNames
      upperCounts
    obtain ⟨second, isSecond, secondSpelled, _, secondThere⟩ := exists_listed wellFormed noLinks
      isCompiled isFound isLower lowerName (directoryAt?_eq_some.mp lowerHere)
      (fun name member => entryNames name (List.mem_append_right between member)) lowerCounts
    rw [List.append_assoc] at secondThere
    rw [once first isFirst second isSecond (sameFile_of_key firstThere secondThere), secondSpelled,
      List.map_append, ← List.append_assoc] at firstSpelled
    exact List.append_cancel_right firstSpelled
  · intro alike left isLeft right isRight ⟨key, content, leftThere, rightThere⟩
    obtain ⟨leftRoot, isLeftRoot, leftName, leftHolder, leftNames, leftHere, leftEntries, rfl,
      leftCounts⟩ := exists_root_of_mem_find wellFormed isCompiled isFound isLeft
    obtain ⟨rightRoot, isRightRoot, rightName, rightHolder, rightNames, rightHere, rightEntries,
      rfl, rightCounts⟩ := exists_root_of_mem_find wellFormed isCompiled isFound isRight
    have leftKey := noLinks.key_of_descend leftEntries leftHere leftThere
    have rightKey := noLinks.key_of_descend rightEntries rightHere rightThere
    apply eq_of_mem_find isFound isLeft isRight
    -- One of the two directories is on the way to the other.
    rcases List.append_eq_append_iff.mp (leftKey.symm.trans rightKey) with
      ⟨between, rfl, rfl⟩ | ⟨between, rfl, rfl⟩
    · exact alike.components_eq isLeftRoot isRightRoot leftName rightName leftHere rightHere
        leftEntries leftCounts rightCounts
    · exact (alike.components_eq isRightRoot isLeftRoot rightName leftName rightHere leftHere
        rightEntries rightCounts leftCounts).symm

end FactoryProxy.SourceFiles
