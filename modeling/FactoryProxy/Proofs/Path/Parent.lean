import FactoryProxy.Proofs.FileSystem.Opening
import FactoryProxy.Proofs.Text.Trimming

/-!
Contract: the directory and the name in the path of an entry.

A path to an entry of a directory has that directory as its parent, without the slashes and
single dots that may stand between the two.

Owns: the parent and the file name of a child of a path, and what a file name may contain.
-/

namespace FactoryProxy.Path

variable {directory path : Path} {name : String}

/-! ## The parent of a child -/

theorem pieces_appendSegments {start : List Char} {segments : List (List Char)}
    (startFree : ∀ c ∈ start, isSlash c = false)
    (free : ∀ segment ∈ segments, ∀ c ∈ segment, isSlash c = false) :
    Text.pieces isSlash (appendSegments start segments).text.toList = start :: segments := by
  unfold appendSegments
  rw [String.toList_ofList]
  induction segments generalizing start with
  | nil => rw [List.flatMap_nil, List.append_nil, Text.pieces_of_free startFree]
  | cons segment rest inductionHypothesis =>
      obtain ⟨segmentFree, restFree⟩ := List.forall_mem_cons.mp free
      rw [List.flatMap_cons, List.cons_append, Text.pieces_append rfl,
        Text.pieces_of_free startFree, inductionHypothesis segmentFree restFree]
      rfl

theorem componentOf_isSilent {segment : List Char} (silent : isSilent segment = true) :
    componentOf segment = none := by
  unfold isSilent at silent
  unfold componentOf
  rw [if_pos (by simpa using silent)]

/-- Silent segments at the end of a path are no components. -/
theorem filterMap_dropTail (segments : List (List Char)) :
    (Text.dropTail isSilent segments).filterMap componentOf = segments.filterMap componentOf := by
  have parts := congrArg List.reverse
    (List.takeWhile_append_dropWhile (p := isSilent) (l := segments.reverse))
  rw [List.reverse_append, List.reverse_reverse] at parts
  have nothing : (segments.reverse.takeWhile isSilent).reverse.filterMap componentOf = [] := by
    apply List.filterMap_eq_nil_iff.mpr
    intro segment member
    exact componentOf_isSilent (List.mem_takeWhile_imp (List.mem_reverse.mp member))
  calc (Text.dropTail isSilent segments).filterMap componentOf
      = (segments.reverse.dropWhile isSilent).reverse.filterMap componentOf ++
          (segments.reverse.takeWhile isSilent).reverse.filterMap componentOf := by
        rw [nothing, List.append_nil]
        rfl
    _ = segments.filterMap componentOf := by rw [← List.filterMap_append, parts]

theorem isSilent_name (entryName : IsEntryName name) : isSilent name.toList = false := by
  apply Bool.eq_false_iff.mpr
  intro silent
  have noComponent := componentOf_isSilent silent
  rw [componentOf_name entryName] at noComponent
  cases noComponent

/-- What the first piece adds to the components depends on the others only if it is empty. -/
theorem startOfPieces_congr {first : List Char} {rest other : List (List Char)}
    (alike : first = [] → (rest = [] ↔ other = [])) :
    startOfPieces (first :: rest) = startOfPieces (first :: other) := by
  cases first with
  | nil =>
      cases rest with
      | nil => rw [(alike rfl).mp rfl]
      | cons second further =>
          cases other with
          | nil => cases (alike rfl).mpr rfl
          | cons => rfl
  | cons head tail => rfl

/-- The pieces of a directory are the first piece of its child, which stands for the root
if it is empty, and components as in the child. -/
theorem pieces_directory {first : List Char} {rest : List (List Char)}
    (isDirectory : Text.pieces isSlash directory.text.toList = first :: rest ∧
        first :: rest ≠ [[]] ∨
      Text.pieces isSlash directory.text.toList = first :: rest ++ [[]]) :
    ∃ behind, Text.pieces isSlash directory.text.toList = first :: behind ∧
      (first = [] → behind ≠ []) ∧ behind.filterMap componentOf = rest.filterMap componentOf := by
  rcases isDirectory with ⟨isPieces, more⟩ | isPieces
  · refine ⟨rest, isPieces, ?_, rfl⟩
    rintro rfl rfl
    exact more rfl
  · rw [List.cons_append] at isPieces
    refine ⟨rest ++ [[]], isPieces, ?_, ?_⟩
    · exact fun _ => List.append_ne_nil_of_right_ne_nil rest (List.cons_ne_nil _ _)
    · rw [List.filterMap_append]
      exact List.append_nil _

/-- A path with a name at its end has what stands before as its parent. -/
theorem parent?_of_pieces {first last : List Char} {rest : List (List Char)}
    (isPieces : Text.pieces isSlash path.text.toList = first :: (rest ++ [last]))
    (loud : isSilent last = false) :
    path.parent? =
      if first.isEmpty && (Text.dropTail isSilent rest).isEmpty then some ⟨"/"⟩
      else some (appendSegments first (Text.dropTail isSilent rest)) := by
  have stays : Text.dropTail isSilent (rest ++ [last]) = rest ++ [last] := by
    apply Text.dropTail_eq_self
    intro other isLast
    rw [List.getLast?_append, List.getLast?_singleton] at isLast
    rw [← Option.some.inj isLast]
    exact loud
  obtain ⟨head, tail, isTail⟩ := List.exists_cons_of_ne_nil
    (List.append_ne_nil_of_right_ne_nil rest (List.cons_ne_nil last []))
  have isRest : (head :: tail).dropLast = rest := by rw [← isTail, List.dropLast_concat]
  unfold parent?
  rw [isPieces]
  dsimp only
  rw [stays, isTail]
  dsimp only
  rw [isRest]

/-- The pieces before a name are those of a path with the components of its directory. -/
theorem components_above {first : List Char} {rest behind : List (List Char)}
    (isPieces : Text.pieces isSlash directory.text.toList = first :: behind)
    (isRoot : first = [] → behind ≠ [])
    (sameInner : behind.filterMap componentOf = rest.filterMap componentOf)
    (free : ∀ segment ∈ first :: rest, ∀ c ∈ segment, isSlash c = false) :
    ∃ above, (if first.isEmpty && (Text.dropTail isSilent rest).isEmpty then some ⟨"/"⟩
        else some (appendSegments first (Text.dropTail isSilent rest))) = some above ∧
      above.components = directory.components := by
  have sameAbove := filterMap_dropTail rest
  by_cases bare : (first.isEmpty && (Text.dropTail isSilent rest).isEmpty) = true
  · rw [if_pos bare]
    obtain ⟨noFirst, noAbove⟩ := Bool.and_eq_true_iff.mp bare
    obtain rfl := List.isEmpty_iff.mp noFirst
    rw [List.isEmpty_iff.mp noAbove] at sameAbove
    obtain ⟨second, further, rfl⟩ := List.exists_cons_of_ne_nil (isRoot rfl)
    refine ⟨_, rfl, ?_⟩
    rw [components_eq directory, isPieces, List.filterMap_cons, sameInner, ← sameAbove]
    rfl
  · rw [if_neg bare]
    refine ⟨_, rfl, ?_⟩
    obtain ⟨firstFree, restFree⟩ := List.forall_mem_cons.mp free
    have aboveFree : ∀ segment ∈ Text.dropTail isSilent rest, ∀ c ∈ segment, isSlash c = false :=
      fun segment member =>
        restFree segment ((Text.dropTail_prefix isSilent rest).subset member)
    have sameStart : startOfPieces (first :: Text.dropTail isSilent rest) =
        startOfPieces (first :: behind) := by
      apply startOfPieces_congr
      intro noFirst
      refine ⟨fun noAbove => ?_, fun noBehind => absurd noBehind (isRoot noFirst)⟩
      rw [noFirst, noAbove] at bare
      exact absurd rfl bare
    rw [components_eq, components_eq directory, pieces_appendSegments firstFree aboveFree,
      isPieces, sameStart, List.filterMap_cons, List.filterMap_cons, sameAbove, sameInner]

/-- The parent of a child is its directory, perhaps in another spelling. -/
theorem parent?_child (directory : Path) (entryName : IsEntryName name) :
    ∃ above, (directory.child name).parent? = some above ∧
      above.components = directory.components := by
  obtain ⟨segments, isChild, isDirectory⟩ := pieces_child directory entryName
  cases segments with
  | nil =>
      have isEmpty : Text.pieces isSlash directory.text.toList = [[]] := by
        rcases isDirectory with ⟨isPieces, _⟩ | isPieces
        · exact absurd isPieces (Text.pieces_ne_nil isSlash _)
        · exact isPieces
      have named : name.toList.isEmpty = false := by
        apply Bool.eq_false_iff.mpr
        intro nothing
        exact entryName.isLoud (.inl (String.toList_inj.mp (List.isEmpty_iff.mp nothing)))
      refine ⟨⟨""⟩, ?_, ?_⟩
      · unfold parent?
        rw [isChild]
        show (if name.toList.isEmpty then none else some (Path.mk "")) = some ⟨""⟩
        rw [named]
        rfl
      · rw [components_eq, components_eq directory, isEmpty]
        rfl
  | cons first rest =>
      obtain ⟨behind, isPieces, isRoot, sameInner⟩ := pieces_directory isDirectory
      have free : ∀ segment ∈ first :: rest, ∀ c ∈ segment, isSlash c = false := by
        intro segment member
        have inChild : segment ∈ Text.pieces isSlash (directory.child name).text.toList := by
          rw [isChild]
          exact List.mem_append_left _ member
        exact Text.free_of_mem_pieces inChild
      rw [parent?_of_pieces isChild (isSilent_name entryName)]
      exact components_above isPieces isRoot sameInner free

/-! ## File names -/

theorem fileName?_child (directory : Path) (entryName : IsEntryName name) :
    (directory.child name).fileName? = some name := by
  unfold fileName?
  rw [components_child entryName, List.getLast?_append, List.getLast?_singleton]
  rfl

/-- A file name is one piece of the path. -/
theorem free_of_fileName? (isName : path.fileName? = some name) :
    ∀ c ∈ name.toList, isSlash c = false := by
  unfold fileName? at isName
  split at isName
  · rename_i last isLast
    obtain rfl := Option.some.inj isName
    have member := List.mem_of_getLast? isLast
    have counted : Component.normal last ∈ path.components.filter Component.isSegment :=
      List.mem_filter.mpr ⟨member, rfl⟩
    rw [filter_components] at counted
    obtain ⟨piece, isPiece, isComponent⟩ := List.mem_filterMap.mp counted
    have isText : piece = last.toList := by
      unfold componentOf at isComponent
      split at isComponent
      · cases isComponent
      · split at isComponent
        · cases isComponent
        · rw [← Component.normal.inj (Option.some.inj isComponent), String.toList_ofList]
    rw [← isText]
    exact Text.free_of_mem_pieces isPiece
  · cases isName

end FactoryProxy.Path
