import FactoryProxy.Proofs.FileSystem.Children

/-!
Contract: ways to the entries of a directory.

A path to an entry of a directory leads through that directory. So a child of a path leads
somewhere only if the path leads to a directory, and then to what the directory holds
under the name.

Owns: the last step of a way, and the entry at a child of a path and at other spellings of
such a child.
-/

namespace FactoryProxy.FileSystem

variable {files : FileSystem} {links : Nat} {here key : FileKey} {entry : FileEntry}
  {segments above : List String} {directory path left right : Path} {name : String}

/-! ## The last step -/

/-- A way that ends with a name leads to a directory before. -/
theorem leads_before_name (entryName : IsEntryName name)
    (leads : Leads files true links here (above ++ [name]) (.found key entry)) :
    ∃ holder left, Leads files true links here above (.found holder .directory) ∧
      Leads files true left holder [name] (.found key entry) := by
  generalize isWay : above ++ [name] = way at leads
  generalize isPlace : Place.found key entry = place at leads
  induction leads generalizing above with
  | finish => exact absurd isWay (List.append_ne_nil_of_right_ne_nil _ (List.cons_ne_nil _ _))
  | @silent links here segment rest place isSilent further inductionHypothesis =>
      cases above with
      | nil =>
          rw [(List.cons.inj isWay).1] at entryName
          exact absurd isSilent entryName.isLoud
      | cons first others =>
          obtain ⟨rfl, isRest⟩ := List.cons.inj isWay
          obtain ⟨holder, left, leadsBefore, lastStep⟩ := inductionHypothesis isRest isPlace
          exact ⟨holder, left, .silent isSilent leadsBefore, lastStep⟩
  | @above links here rest place further inductionHypothesis =>
      cases above with
      | nil =>
          rw [(List.cons.inj isWay).1] at entryName
          exact absurd rfl entryName.isBelow
      | cons first others =>
          obtain ⟨rfl, isRest⟩ := List.cons.inj isWay
          obtain ⟨holder, left, leadsBefore, lastStep⟩ := inductionHypothesis isRest isPlace
          exact ⟨holder, left, .above leadsBefore, lastStep⟩
  | vacant => cases isPlace
  | vacantDirectory => cases isPlace
  | @directory links here segment rest place isName isThere further inductionHypothesis =>
      cases above with
      | nil =>
          obtain ⟨rfl, rfl⟩ := List.cons.inj isWay
          exact ⟨here, links, .finish, .directory isName isThere further⟩
      | cons first others =>
          obtain ⟨rfl, isRest⟩ := List.cons.inj isWay
          obtain ⟨holder, left, leadsBefore, lastStep⟩ := inductionHypothesis isRest isPlace
          exact ⟨holder, left, .directory isName isThere leadsBefore, lastStep⟩
  | @file links here segment content isName isThere =>
      cases above with
      | nil =>
          obtain ⟨rfl, _⟩ := List.cons.inj isWay
          exact ⟨here, links, .finish, .file isName isThere⟩
      | cons first others => simp at isWay
  | lastLink _ _ stays => cases stays
  | @link links here segment target rest place isName isThere goesOn further inductionHypothesis =>
      cases above with
      | nil =>
          obtain ⟨rfl, rfl⟩ := List.cons.inj isWay
          exact ⟨here, links + 1, .finish, .link isName isThere goesOn further⟩
      | cons first others =>
          obtain ⟨rfl, rfl⟩ := List.cons.inj isWay
          obtain ⟨holder, left, leadsBefore, lastStep⟩ :=
            inductionHypothesis (List.append_assoc _ _ _) isPlace
          exact ⟨holder, left, .link isName isThere (by simp) leadsBefore, lastStep⟩

/-- A step by a name leads to what the directory holds, or through a link. -/
theorem lookup_of_leads_name (entryName : IsEntryName name)
    (leads : Leads files true links here [name] (.found key entry)) :
    ∃ held, files.lookup (here ++ [name]) = some held ∧
      ((∀ target, held ≠ .link target) → key = here ++ [name] ∧ entry = held) := by
  cases leads with
  | silent isSilent => exact absurd isSilent entryName.isLoud
  | above => exact absurd rfl entryName.isBelow
  | directory isName isThere further =>
      cases further
      exact ⟨_, isThere, fun _ => ⟨rfl, rfl⟩⟩
  | file isName isThere => exact ⟨_, isThere, fun _ => ⟨rfl, rfl⟩⟩
  | lastLink _ _ stays => cases stays
  | link isName isThere => exact ⟨_, isThere, fun notLink => absurd rfl (notLink _)⟩

/-- A slash behind a way to a directory changes nothing. -/
theorem leads_slash (leads : Leads files true links here segments (.found key .directory)) :
    Leads files true links here (segments ++ [""]) (.found key .directory) := by
  generalize isPlace : Place.found key .directory = place at leads
  induction leads with
  | finish => exact .silent (.inl rfl) .finish
  | silent isSilent _ inductionHypothesis => exact .silent isSilent (inductionHypothesis isPlace)
  | above _ inductionHypothesis => exact .above (inductionHypothesis isPlace)
  | vacant => cases isPlace
  | vacantDirectory => cases isPlace
  | directory isName isThere _ inductionHypothesis =>
      exact .directory isName isThere (inductionHypothesis isPlace)
  | file => cases isPlace
  | lastLink => cases isPlace
  | link isName isThere goesOn _ inductionHypothesis =>
      have further := inductionHypothesis isPlace
      rw [List.append_assoc] at further
      exact .link isName isThere (by simp) further

/-! ## Children -/

/-- The text of a child starts with that of its directory. -/
theorem exists_text_child (directory : Path) (entryName : IsEntryName name) :
    ∃ rest, (directory.child name).text = directory.text ++ rest := by
  rcases Path.text_child directory entryName with
    ⟨above, isDirectory, isChild⟩ | ⟨isDirectory, isChild⟩ | ⟨_, isChild⟩
  · refine ⟨name, String.toList_inj.mp ?_⟩
    rw [isChild, String.toList_append, isDirectory, List.append_assoc]
    rfl
  · exact ⟨name, by rw [isChild, isDirectory, String.empty_append]⟩
  · refine ⟨String.ofList ('/' :: name.toList), String.toList_inj.mp ?_⟩
    rw [isChild, String.toList_append, String.toList_ofList]

theorem isUsable_of_child (entryName : IsEntryName name) (nonempty : directory.text ≠ "")
    (usable : IsUsable (directory.child name)) : IsUsable directory := by
  obtain ⟨rest, isText⟩ := exists_text_child directory entryName
  obtain ⟨isText', _, isShort⟩ := usable
  rw [isText] at isText' isShort
  refine ⟨?_, ?_, ?_⟩
  · intro hasZero
    apply isText'
    rw [String.toList_append, List.contains_eq_mem, decide_eq_true_iff]
    rw [List.contains_eq_mem, decide_eq_true_iff] at hasZero
    exact List.mem_append_left _ hasZero
  · intro isEmpty
    exact nonempty (String.isEmpty_iff.mp isEmpty)
  · rw [String.utf8ByteSize_append] at isShort
    omega

/-- A child that leads to an entry is in a directory, under its name unless it is a link. -/
theorem entryAt_of_child (entryName : IsEntryName name) (nonempty : directory.text ≠ "")
    (found : files.entryAt (directory.child name) = .ok (key, entry)) :
    ∃ holder, files.entryAt directory = .ok (holder, .directory) ∧
      ∃ held, files.lookup (holder ++ [name]) = some held ∧
        ((∀ target, held ≠ .link target) → key = holder ++ [name] ∧ entry = held) := by
  obtain ⟨usable, leads⟩ := locate_eq_ok_iff.mp (entryAt_eq_ok_iff.mp found)
  obtain ⟨above, isChild, isDirectory⟩ := segmentsOf_child directory entryName
  rw [isChild, startOf_child entryName] at leads
  obtain ⟨holder, left, leadsBefore, lastStep⟩ := leads_before_name entryName leads
  refine ⟨holder, ?_, lookup_of_leads_name entryName lastStep⟩
  refine entryAt_eq_ok_iff.mpr (locate_eq_ok_iff.mpr
    ⟨isUsable_of_child entryName nonempty usable, ?_⟩)
  rcases isDirectory with isAbove | isAbove
  · rw [isAbove]
    exact leadsBefore
  · rw [isAbove]
    exact leads_slash leadsBefore

/-! ## Other spellings -/

/-- The right list is the left one without some silent segments, none of them at the end. -/
inductive Noisier : List String → List String → Prop where
  | nil : Noisier [] []
  | keep {left right : List String} (segment : String) (noisier : Noisier left right) :
      Noisier (segment :: left) (segment :: right)
  | drop {left right : List String} {segment : String} (isSilent : segment = "" ∨ segment = ".")
      (more : right ≠ []) (noisier : Noisier left right) : Noisier (segment :: left) right

theorem Noisier.append (common : List String) {left right : List String}
    (noisier : Noisier left right) : Noisier (common ++ left) (common ++ right) := by
  induction common with
  | nil => exact noisier
  | cons head tail inductionHypothesis => exact .keep head inductionHypothesis

theorem Noisier.eq_nil {left : List String} (noisier : Noisier left []) : left = [] := by
  cases noisier with
  | nil => rfl
  | drop _ more => exact absurd rfl more

/-- Segments before a name are noisier than those of them that count. -/
theorem noisier_filter (loud : isLoud name = true) (above : List String) :
    Noisier (above ++ [name]) ((above ++ [name]).filter isLoud) := by
  have keepsName : ∀ segments : List String, (segments ++ [name]).filter isLoud ≠ [] := by
    intro segments
    rw [List.filter_append, List.filter_cons_of_pos loud]
    exact List.append_ne_nil_of_right_ne_nil _ (List.cons_ne_nil _ _)
  induction above with
  | nil =>
      rw [List.nil_append, List.filter_cons_of_pos loud]
      exact .keep name .nil
  | cons segment rest inductionHypothesis =>
      rw [List.cons_append]
      by_cases isSegmentLoud : isLoud segment = true
      · rw [List.filter_cons_of_pos isSegmentLoud]
        exact .keep segment inductionHypothesis
      · rw [List.filter_cons_of_neg isSegmentLoud]
        refine .drop ?_ (keepsName rest) inductionHypothesis
        exact Classical.not_not.mp (fun notSilent => isSegmentLoud (isLoud_iff.mpr notSilent))

/-- Silent segments in front of a way are passed one by one. -/
theorem leads_behind_silence {place : Place} {segment : String} {rest noisy : List String}
    (noisier : Noisier noisy (segment :: rest))
    (leads : ∀ left, Noisier left rest → Leads files true links here (segment :: left) place) :
    Leads files true links here noisy place := by
  generalize isQuiet : segment :: rest = quiet at noisier
  induction noisier with
  | nil => cases isQuiet
  | keep _ noisier =>
      obtain ⟨rfl, rfl⟩ := List.cons.inj isQuiet
      exact leads _ noisier
  | drop isSilent _ _ inductionHypothesis => exact .silent isSilent (inductionHypothesis isQuiet)

/-- A way to an entry is the same with silent segments between its names. -/
theorem leads_of_noisier {noisy : List String}
    (leads : Leads files true links here segments (.found key entry))
    (noisier : Noisier noisy segments) :
    Leads files true links here noisy (.found key entry) := by
  generalize isPlace : Place.found key entry = place at leads
  induction leads generalizing noisy with
  | finish =>
      rw [noisier.eq_nil]
      exact .finish
  | silent isSilent _ inductionHypothesis =>
      apply leads_behind_silence noisier
      intro left noisierRest
      exact .silent isSilent (inductionHypothesis noisierRest isPlace)
  | above _ inductionHypothesis =>
      apply leads_behind_silence noisier
      intro left noisierRest
      exact .above (inductionHypothesis noisierRest isPlace)
  | vacant => cases isPlace
  | vacantDirectory => cases isPlace
  | directory isName isThere _ inductionHypothesis =>
      apply leads_behind_silence noisier
      intro left noisierRest
      exact .directory isName isThere (inductionHypothesis noisierRest isPlace)
  | file isName isThere =>
      apply leads_behind_silence noisier
      intro left noisierRest
      rw [noisierRest.eq_nil]
      exact .file isName isThere
  | lastLink _ _ stays => cases stays
  | link isName isThere _ _ inductionHypothesis =>
      apply leads_behind_silence noisier
      intro left noisierRest
      exact .link isName isThere (by simp) (inductionHypothesis (noisierRest.append _) isPlace)

/-- A usable path that ends with a name leads where another spelling of it leads. -/
theorem entryAt_respelled (entryName : IsEntryName name) (usable : IsUsable (directory.child name))
    (same : path.components = (directory.child name).components)
    (found : files.entryAt path = .ok (key, entry)) :
    files.entryAt (directory.child name) = .ok (key, entry) := by
  have leads := leads_of_quieter (locate_eq_ok_iff.mp (entryAt_eq_ok_iff.mp found)).2
    (quieter_filter (segmentsOf path.text))
  rw [startOf_of_components same, filter_segmentsOf, same, ← filter_segmentsOf] at leads
  refine entryAt_eq_ok_iff.mpr (locate_eq_ok_iff.mpr ⟨usable, ?_⟩)
  obtain ⟨above, isChild, _⟩ := segmentsOf_child directory entryName
  rw [isChild] at leads ⊢
  exact leads_of_noisier leads (noisier_filter (isLoud_iff.mpr entryName.isLoud) above)

end FactoryProxy.FileSystem
