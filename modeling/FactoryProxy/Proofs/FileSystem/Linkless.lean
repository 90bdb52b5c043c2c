import FactoryProxy.Proofs.FileSystem.Scanning

/-!
Contract: file systems without links.

Where no entry is a link, the components of a path alone say under which key it ends: a name
goes one step down, `..` one step up. No walk comes back to a directory that it is in, so a
walk below a directory always completes.

Owns: the absence of links, the keys behind components, and the success of walks.
-/

namespace FactoryProxy

namespace FileSystem

variable {files : FileSystem} {directory path : Path} {here holder key : FileKey}
  {entry : FileEntry} {name : String} {names : List String}

/-! ## Ways without links -/

def isLink : FileEntry → Bool
  | .link _ => true
  | _ => false

def HasNoLinks (files : FileSystem) : Prop :=
  ∀ present ∈ files.entries.entries, isLink present.2 = false

instance (files : FileSystem) : Decidable (HasNoLinks files) :=
  inferInstanceAs (Decidable (∀ present ∈ files.entries.entries, isLink present.2 = false))

theorem HasNoLinks.lookup (noLinks : HasNoLinks files) (isThere : files.lookup key = some entry)
    (target : String) : entry ≠ .link target := by
  cases key with
  | nil =>
      rw [← Option.some.inj isThere]
      exact FileEntry.noConfusion
  | cons head tail =>
      rintro rfl
      cases noLinks _ (mem_of_lookup (List.cons_ne_nil head tail) isThere)

/-- Where a component leads from a directory. -/
def stepTo (here : FileKey) : Path.Component → FileKey
  | .root => []
  | .current => here
  | .parent => here.dropLast
  | .normal name => here ++ [name]

/-- Where components lead from a directory. -/
def destination (here : FileKey) (components : List Path.Component) : FileKey :=
  components.foldl stepTo here

theorem destination_append (here : FileKey) (first second : List Path.Component) :
    destination here (first ++ second) = destination (destination here first) second :=
  List.foldl_append

theorem destination_names (here : FileKey) (names : List String) :
    destination here (names.map .normal) = here ++ names := by
  induction names generalizing here with
  | nil => exact (List.append_nil here).symm
  | cons name rest inductionHypothesis =>
      have further := inductionHypothesis (here ++ [name])
      rwa [List.append_assoc, List.singleton_append] at further

/-- Without links a way ends where the components of its segments lead. -/
theorem HasNoLinks.key_of_leads (noLinks : HasNoLinks files) {links : Nat}
    {segments : List String} (leads : Leads files true links here segments (.found key entry)) :
    key = destination here (segments.filterMap (fun segment =>
      Path.componentOf segment.toList)) := by
  generalize isPlace : Place.found key entry = place at leads
  induction leads with
  | finish => exact (Place.found.inj isPlace).1
  | silent isSilent _ inductionHypothesis =>
      rcases isSilent with rfl | rfl
      · exact inductionHypothesis isPlace
      · exact inductionHypothesis isPlace
  | above _ inductionHypothesis => exact inductionHypothesis isPlace
  | vacant => cases isPlace
  | vacantDirectory => cases isPlace
  | directory isName _ _ inductionHypothesis =>
      rw [List.filterMap_cons, Path.componentOf_of_loud isName.isLoud isName.isBelow]
      exact inductionHypothesis isPlace
  | file isName _ =>
      rw [List.filterMap_cons, Path.componentOf_of_loud isName.isLoud isName.isBelow]
      exact (Place.found.inj isPlace).1
  | lastLink _ _ stays => cases stays
  | link _ isThere => exact absurd rfl (noLinks.lookup isThere _)

theorem startOfPieces_cases (segments : List (List Char)) :
    Path.startOfPieces segments = [.root] ∨ Path.startOfPieces segments = [.current] ∨
      Path.startOfPieces segments = [] := by
  unfold Path.startOfPieces
  split
  · exact .inr (.inr rfl)
  · exact .inl rfl
  · split
    · exact .inr (.inl rfl)
    · exact .inr (.inr rfl)

/-- The start of a path leads to the directory at which the path starts. -/
theorem destination_startOfPieces (path : Path) (here : FileKey) :
    destination here (Path.startOfPieces (Text.pieces Path.isSlash path.text.toList)) =
      startOf path.text here := by
  have isRooted := Path.isAbsolute_iff path
  rw [Path.components_eq] at isRooted
  unfold startOf
  rw [show (Path.mk path.text).isAbsolute = path.isAbsolute from rfl]
  rcases startOfPieces_cases (Text.pieces Path.isSlash path.text.toList) with
    isStart | isStart | isStart
  · rw [isStart] at isRooted ⊢
    rw [if_pos (isRooted.mpr rfl)]
    rfl
  · rw [isStart] at isRooted ⊢
    rw [if_neg (fun isAbsolute => by cases isRooted.mp isAbsolute)]
    rfl
  · rw [isStart] at isRooted ⊢
    rw [if_neg ?_]
    · rfl
    · intro isAbsolute
      cases Path.isSegment_of_mem (List.mem_of_head? (isRooted.mp isAbsolute))

/-- Without links the components of a path say where it ends. -/
theorem HasNoLinks.key_of_entryAt (noLinks : HasNoLinks files)
    (found : files.entryAt path = .ok (key, entry)) :
    key = destination files.current path.components := by
  have leads := (locate_eq_ok_iff.mp (entryAt_eq_ok_iff.mp found)).2
  have isKey := noLinks.key_of_leads leads
  unfold segmentsOf Text.splitBy at isKey
  rw [List.filterMap_map] at isKey
  simp only [Function.comp_def, String.toList_ofList] at isKey
  rw [isKey, Path.components_eq, destination_append, destination_startOfPieces]

/-- Without links a way down by names ends under these names. -/
theorem HasNoLinks.key_of_descend (noLinks : HasNoLinks files)
    (entryNames : ∀ other ∈ names, IsEntryName other)
    (isHere : files.entryAt directory = .ok (holder, .directory))
    (found : files.entryAt (directory.descend names) = .ok (key, entry)) :
    key = holder ++ names := by
  rw [noLinks.key_of_entryAt found, Path.components_descend entryNames, destination_append,
    ← noLinks.key_of_entryAt isHere, destination_names]

/-- Without links a child is under its name in the directory. -/
theorem HasNoLinks.key_of_child (noLinks : HasNoLinks files) (entryName : IsEntryName name)
    (isHere : files.entryAt directory = .ok (holder, .directory))
    (found : files.entryAt (directory.child name) = .ok (key, entry)) : key = holder ++ [name] :=
  noLinks.key_of_descend (List.forall_mem_singleton.mpr entryName) isHere found

/-- The key of the directory that a path leads to. -/
def directoryAt? (files : FileSystem) (path : Path) : Option FileKey :=
  match files.entryAt path with
  | .ok (key, .directory) => some key
  | _ => none

theorem directoryAt?_of_entryAt (found : files.entryAt path = .ok (key, .directory)) :
    files.directoryAt? path = some key := by
  unfold directoryAt?
  rw [found]

theorem directoryAt?_eq_some :
    files.directoryAt? path = some key ↔ files.entryAt path = .ok (key, .directory) := by
  refine ⟨fun isHere => ?_, directoryAt?_of_entryAt⟩
  unfold directoryAt? at isHere
  split at isHere
  · rename_i isThere
    rw [isThere, Option.some.inj isHere]
  · cases isHere

/-- The key of the directory in which the children of a path are. The empty path stands for
the current directory. -/
def holderOf? (files : FileSystem) (directory : Path) : Option FileKey :=
  if directory.text = "" then some files.current else files.directoryAt? directory

theorem HasNoLinks.holder_of_child (noLinks : HasNoLinks files) (entryName : IsEntryName name)
    (found : files.entryAt (directory.child name) = .ok (key, entry)) :
    ∃ holder, files.holderOf? directory = some holder ∧ key = holder ++ [name] := by
  by_cases isEmpty : directory.text = ""
  · refine ⟨files.current, if_pos isEmpty, ?_⟩
    have noComponents : directory.components = [] := by
      unfold Path.components
      rw [isEmpty]
      rfl
    rw [noLinks.key_of_entryAt found, Path.components_child entryName, noComponents]
    rfl
  · obtain ⟨holder, isHolder, _⟩ := entryAt_of_child entryName isEmpty found
    refine ⟨holder, ?_, noLinks.key_of_child entryName isHolder found⟩
    unfold holderOf?
    rw [if_neg isEmpty, directoryAt?_of_entryAt isHolder]

/-! ## Walks without links -/

/-- Without links the step at an entry never fails. -/
theorem HasNoLinks.stepAt_eq_ok (noLinks : HasNoLinks files)
    (openDirectories : List (Path × FileKey)) (path : Path)
    (isThere : files.lookup key = some entry) :
    ∃ step, files.stepAt openDirectories path key entry = .ok step := by
  cases entry with
  | file content => exact ⟨.take, rfl⟩
  | directory => exact ⟨.enter key, rfl⟩
  | link target => exact absurd rfl (noLinks.lookup isThere target)

/-- Without links a walk completes. -/
theorem HasNoLinks.filesIn_eq_ok (noLinks : HasNoLinks files) (depth : Nat)
    (openDirectories : List (Path × FileKey)) (directory : Path) (key : FileKey) :
    ∃ listed, files.filesIn depth openDirectories directory key = .ok listed := by
  induction depth generalizing openDirectories directory key with
  | zero => exact ⟨[], rfl⟩
  | succ depth inductionHypothesis =>
      have visits : ∀ child ∈ files.children key, ∃ found,
          files.filesAt depth openDirectories directory key child = .ok found := by
        intro child isChild
        obtain ⟨step, isStep⟩ := noLinks.stepAt_eq_ok openDirectories (directory.child child.1)
          (lookup_of_mem_children isChild)
        cases step with
        | take => exact ⟨_, filesAt_eq_ok.mpr (.inl ⟨isStep, rfl⟩)⟩
        | enter target =>
            obtain ⟨found, walked⟩ := inductionHypothesis
              ((directory.child child.1, target) :: openDirectories) (directory.child child.1)
              target
            exact ⟨found, filesAt_eq_ok.mpr (.inr ⟨target, isStep, walked⟩)⟩
      obtain ⟨inner, visited⟩ := Sequencing.mapM_isOk visits
      exact ⟨inner.flatten, filesIn_succ_eq_ok.mpr ⟨inner, Sequencing.mapM_eq_ok.mp visited, rfl⟩⟩

end FileSystem

namespace SourceFiles

variable {files : FileSystem} {roots : List Path} {exclude : List String}
  {patterns : List (List Glob.Token)}

/-- Without links the files below a directory can be listed. -/
theorem below_of_noLinks (noLinks : files.HasNoLinks) {root : Path}
    (isDirectory : files.isDirectory root = true) : ∃ paths, below files root = .ok paths := by
  cases isInput : isStandardInput root with
  | true => exact ⟨[], below_eq_ok.mpr ⟨isDirectory, .inl ⟨isInput, rfl⟩⟩⟩
  | false =>
      obtain ⟨key, isHere⟩ := FileSystem.isDirectory_iff.mp isDirectory
      obtain ⟨paths, walked⟩ := noLinks.filesIn_eq_ok files.depthLimit [(root, key)] root key
      refine ⟨paths, below_eq_ok.mpr ⟨isDirectory, .inr ⟨isInput, ?_⟩⟩⟩
      unfold FileSystem.filesBelow
      rw [isHere]
      exact walked

/-- Without links a scan of directories completes. -/
theorem find_of_noLinks (noLinks : files.HasNoLinks)
    (areDirectories : ∀ root ∈ roots, files.isDirectory root = true)
    (isCompiled : compile exclude = .ok patterns) :
    ∃ found, find files roots exclude = .ok found := by
  obtain ⟨listed, isListed⟩ := Sequencing.mapM_isOk
    (fun root isRoot => below_of_noLinks noLinks (areDirectories root isRoot))
  exact ⟨_, find_eq_ok.mpr ⟨patterns, listed, isCompiled, Sequencing.mapM_eq_ok.mp isListed, rfl⟩⟩

end SourceFiles

end FactoryProxy
