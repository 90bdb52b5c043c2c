import FactoryProxy.Proofs.FileSystem.Spelling

/-!
Contract: the paths of entries in a directory.

Owns: the names that entries may have, and the segments and components of paths that go
down from a directory by such names.
-/

namespace FactoryProxy

/-- A name that an entry of a directory may have. -/
structure IsEntryName (name : String) : Prop where
  isLoud : ¬ (name = "" ∨ name = ".")
  isBelow : name ≠ ".."
  isPiece : ∀ c ∈ name.toList, Path.isSlash c = false

theorem isEntryName_iff {name : String} :
    (¬ (name = "" ∨ name = ".") ∧ name ≠ ".." ∧
      name.toList.all (fun c => !Path.isSlash c) = true) ↔ IsEntryName name := by
  have isPiece : name.toList.all (fun c => !Path.isSlash c) = true ↔
      ∀ c ∈ name.toList, Path.isSlash c = false := by
    simp
  rw [isPiece]
  exact ⟨fun parts => ⟨parts.1, parts.2.1, parts.2.2⟩,
    fun entryName => ⟨entryName.isLoud, entryName.isBelow, entryName.isPiece⟩⟩

instance (name : String) : Decidable (IsEntryName name) :=
  decidable_of_iff _ isEntryName_iff

namespace Path

variable {directory : Path} {name : String}

/-! ## One name -/

theorem isAbsolute_name (entryName : IsEntryName name) : (Path.mk name).isAbsolute = false := by
  unfold isAbsolute
  cases characters : name.toList with
  | nil => rfl
  | cons first rest =>
      have member : first ∈ name.toList := by
        rw [characters]
        exact List.mem_cons_self
      exact entryName.isPiece first member

/-- The text of a child is that of the directory up to slashes at its end, and then the
name. -/
theorem text_child (directory : Path) (entryName : IsEntryName name) :
    (∃ above, directory.text.toList = above ++ ['/'] ∧
        (directory.child name).text.toList = above ++ '/' :: name.toList) ∨
      directory.text = "" ∧ (directory.child name).text = name ∨
      directory.text ≠ "" ∧
        (directory.child name).text.toList = directory.text.toList ++ '/' :: name.toList := by
  unfold child join
  rw [isAbsolute_name entryName, Bool.false_or]
  by_cases isEmpty : directory.text.isEmpty = true
  · rw [if_pos isEmpty]
    exact .inr (.inl ⟨String.isEmpty_iff.mp isEmpty, rfl⟩)
  · rw [if_neg isEmpty]
    by_cases slash : (directory.text.toList.getLast? == some '/') = true
    · rw [if_pos slash]
      left
      obtain ⟨above, isText⟩ := List.getLast?_eq_some_iff.mp (eq_of_beq slash)
      exact ⟨above, isText, by simp [isText]⟩
    · rw [if_neg slash]
      refine .inr (.inr ⟨fun nothing => isEmpty (String.isEmpty_iff.mpr nothing), ?_⟩)
      simp

theorem pieces_eq_empty {characters : List Char}
    (isEmpty : Text.pieces isSlash characters = [[]]) : characters = [] := by
  cases characters with
  | nil => rfl
  | cons head tail =>
      obtain ⟨first, rest, isPieces⟩ := List.exists_cons_of_ne_nil (Text.pieces_ne_nil isSlash tail)
      rw [Text.pieces, isPieces] at isEmpty
      split at isEmpty
      · simp at isEmpty
      · simp at isEmpty

/-- The pieces of a child are those of its directory without an empty last one, and then
the name. -/
theorem pieces_child (directory : Path) (entryName : IsEntryName name) :
    ∃ above, Text.pieces isSlash (directory.child name).text.toList = above ++ [name.toList] ∧
      (Text.pieces isSlash directory.text.toList = above ∧ above ≠ [[]] ∨
        Text.pieces isSlash directory.text.toList = above ++ [[]]) := by
  have isName := Text.pieces_of_free entryName.isPiece
  have slash : isSlash '/' = true := rfl
  rcases text_child directory entryName with
    ⟨above, isDirectory, isChild⟩ | ⟨isDirectory, isChild⟩ | ⟨nonempty, isChild⟩
  · rw [isChild, isDirectory, Text.pieces_append slash, isName, Text.pieces_append slash]
    exact ⟨_, rfl, .inr rfl⟩
  · rw [isChild, isDirectory, isName]
    exact ⟨[], rfl, .inr rfl⟩
  · rw [isChild, Text.pieces_append slash, isName]
    refine ⟨_, rfl, .inl ⟨rfl, ?_⟩⟩
    intro isEmpty
    exact nonempty (String.toList_inj.mp (pieces_eq_empty isEmpty))

theorem componentOf_of_loud (isLoud : ¬ (name = "" ∨ name = ".")) (isBelow : name ≠ "..") :
    componentOf name.toList = some (.normal name) := by
  have loud : ¬ (name.toList = [] ∨ name.toList = ['.']) := by
    rintro (isEmpty | isDot)
    · exact isLoud (.inl (String.toList_inj.mp isEmpty))
    · exact isLoud (.inr (String.toList_inj.mp isDot))
  have below : name.toList ≠ ['.', '.'] := by
    intro isParent
    exact isBelow (String.toList_inj.mp isParent)
  unfold componentOf
  rw [if_neg loud, if_neg below, String.ofList_toList]

theorem componentOf_name (entryName : IsEntryName name) :
    componentOf name.toList = some (.normal name) :=
  componentOf_of_loud entryName.isLoud entryName.isBelow

/-- What the first pieces of a text add to its components. -/
def startOfPieces : List (List Char) → List Component
  | [] => []
  | [] :: _ :: _ => [.root]
  | first :: _ => if first = ['.'] then [.current] else []

theorem components_eq (path : Path) :
    path.components = startOfPieces (Text.pieces isSlash path.text.toList) ++
      (Text.pieces isSlash path.text.toList).filterMap componentOf := by
  unfold components componentsOf
  dsimp only
  generalize Text.pieces isSlash path.text.toList = segments
  cases segments with
  | nil => rfl
  | cons first rest =>
      cases first with
      | nil =>
          cases rest with
          | nil => rfl
          | cons second others => rfl
      | cons head tail =>
          unfold startOfPieces
          dsimp only
          split
          · rfl
          · rfl

/-- A child has one component more than its directory. -/
theorem components_child (entryName : IsEntryName name) :
    (directory.child name).components = directory.components ++ [.normal name] := by
  obtain ⟨above, isChild, isDirectory⟩ := pieces_child directory entryName
  have sameInner : (Text.pieces isSlash directory.text.toList).filterMap componentOf =
      above.filterMap componentOf := by
    rcases isDirectory with ⟨isAbove, _⟩ | isAbove
    · rw [isAbove]
    · rw [isAbove, List.filterMap_append]
      exact List.append_nil _
  have sameStart : startOfPieces (above ++ [name.toList]) =
      startOfPieces (Text.pieces isSlash directory.text.toList) := by
    rcases isDirectory with ⟨isAbove, notEmpty⟩ | isAbove
    · rw [isAbove]
      cases above with
      | nil => exact absurd isAbove (Text.pieces_ne_nil isSlash _)
      | cons first rest =>
          cases first with
          | nil =>
              cases rest with
              | nil => exact absurd rfl notEmpty
              | cons second others => rfl
          | cons head tail => rfl
    · rw [isAbove]
      cases above with
      | nil =>
          have notDot : name.toList ≠ ['.'] := by
            intro isDot
            exact entryName.isLoud (.inr (String.toList_inj.mp isDot))
          cases characters : name.toList with
          | nil => rfl
          | cons head tail =>
              rw [characters] at notDot
              exact if_neg notDot
      | cons first rest =>
          cases first with
          | nil => cases rest <;> rfl
          | cons head tail => rfl
  rw [components_eq, components_eq, isChild, sameStart, sameInner, List.filterMap_append,
    List.append_assoc, List.filterMap_cons, componentOf_name entryName]
  rfl

/-! ## Names in a row -/

/-- The path that goes down from a directory by names. -/
def descend (directory : Path) (names : List String) : Path :=
  names.foldl child directory

theorem components_descend {names : List String} (entryNames : ∀ name ∈ names, IsEntryName name) :
    (directory.descend names).components = directory.components ++ names.map .normal := by
  unfold descend
  induction names generalizing directory with
  | nil => simp
  | cons name rest inductionHypothesis =>
      rw [List.foldl_cons, inductionHypothesis (fun other member =>
        entryNames other (List.mem_cons_of_mem name member)),
        components_child (entryNames name List.mem_cons_self), List.append_assoc]
      rfl

/-- Two ways down from one directory are equal if their components are. -/
theorem descend_injective {left right : List String}
    (leftNames : ∀ name ∈ left, IsEntryName name) (rightNames : ∀ name ∈ right, IsEntryName name)
    (same : (directory.descend left).components = (directory.descend right).components) :
    left = right := by
  rw [components_descend leftNames, components_descend rightNames] at same
  have sameNames := List.append_cancel_left same
  exact (List.map_inj_right (fun _ _ isNormal => Component.normal.inj isNormal)).mp sameNames

theorem text_child_ne_empty (entryName : IsEntryName name) : (directory.child name).text ≠ "" := by
  obtain ⟨above, isChild, _⟩ := pieces_child directory entryName
  intro isEmpty
  rw [isEmpty] at isChild
  have isName : [[]] = above ++ [name.toList] := isChild
  cases above with
  | nil => exact entryName.isLoud (.inl (String.toList_inj.mp (List.cons.inj isName).1.symm))
  | cons first rest => simp at isName

end Path

namespace FileSystem

variable {directory : Path} {name : String}

/-- The segments of a child are those of its directory without an empty last one, and then
the name. -/
theorem segmentsOf_child (directory : Path) (entryName : IsEntryName name) :
    ∃ above, segmentsOf (directory.child name).text = above ++ [name] ∧
      (segmentsOf directory.text = above ∨ segmentsOf directory.text = above ++ [""]) := by
  obtain ⟨above, isChild, isDirectory⟩ := Path.pieces_child directory entryName
  unfold segmentsOf Text.splitBy
  refine ⟨above.map String.ofList, ?_, ?_⟩
  · rw [isChild, List.map_append, List.map_singleton, String.ofList_toList]
  · rcases isDirectory with ⟨isAbove, _⟩ | isAbove
    · rw [isAbove]
      exact .inl rfl
    · rw [isAbove, List.map_append]
      exact .inr rfl

theorem startOf_child (entryName : IsEntryName name) (here : FileKey) :
    startOf (directory.child name).text here = startOf directory.text here := by
  have together : (directory.child name).isAbsolute = directory.isAbsolute := by
    rw [Bool.eq_iff_iff, Path.isAbsolute_iff, Path.isAbsolute_iff,
      Path.components_child entryName]
    cases directory.components with
    | nil => simp
    | cons first rest => simp
  unfold startOf
  rw [show (Path.mk (directory.child name).text).isAbsolute = (directory.child name).isAbsolute
    from rfl, together]

end FileSystem

end FactoryProxy
