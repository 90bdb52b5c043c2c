import FactoryProxy.Proofs.Name.Resolution

/-!
Contract: names in another ASCII case.

Folding commutes with everything that is done to a name, because separators and white space
are no letters. So a scope read in lower case gives the full names in lower case.

Owns: folding against trimming, segments, imports and the resolution of references.
-/

namespace FactoryProxy

/-! ## Texts -/

namespace Text

variable {inClass : Char → Bool}

@[simp] theorem fold_fold (text : String) : fold (fold text) = fold text := by
  apply String.toList_injective
  simp only [toList_fold, List.map_map]
  apply List.map_congr_left
  intro c _
  rcases toLower_cases c with same | ⟨_, _, moved⟩
  · simp [same]
  · rcases toLower_cases c.toLower with again | ⟨_, high, _⟩
    · simp [again]
    · omega

/-- A class without letters is trimmed in every case alike. -/
theorem fold_trim (noLetters : ∀ c, inClass c.toLower = inClass c) (text : String) :
    fold (trim inClass text) = trim inClass (fold text) := by
  have keeps : inClass ∘ Char.toLower = inClass := funext noLetters
  apply String.toList_injective
  simp only [trim, toList_fold, String.toList_ofList, dropTail, List.dropWhile_map, keeps,
    ← List.map_reverse]

theorem fold_trimBlank (text : String) : fold (trimBlank text) = trimBlank (fold text) :=
  fold_trim isBlank_toLower text

theorem fold_eq_empty_iff {text : String} : fold text = "" ↔ text = "" := by
  rw [← String.toList_inj, ← String.toList_inj, toList_fold]
  exact List.map_eq_nil_iff

end Text

/-! ## Names -/

namespace Name

theorem isSeparator_toLower (c : Char) : isSeparator c.toLower = isSeparator c := by
  have notLetter : ∀ other : Char, isSeparator other = true → other.toNat = 92 := by
    intro other isOther
    rw [show other = separator from beq_iff_eq.mp isOther]
    rfl
  rcases Text.toLower_cases c with same | ⟨low, high, moved⟩
  · rw [same]
  · have capital : isSeparator c = false := Bool.eq_false_iff.mpr (fun isOther => by
      have code := notLetter c isOther
      omega)
    have lowered : isSeparator c.toLower = false := Bool.eq_false_iff.mpr (fun isOther => by
      have code := notLetter c.toLower isOther
      omega)
    rw [capital, lowered]

/-- The segments of a name end at the same places in every case. -/
theorem inSegment_comp_toLower :
    (fun c => !isSeparator c) ∘ Char.toLower = fun c => !isSeparator c :=
  funext (fun c => congrArg not (isSeparator_toLower c))

theorem fold_trimSeparators (name : String) :
    Text.fold (trimSeparators name) = trimSeparators (Text.fold name) :=
  Text.fold_trim isSeparator_toLower name

theorem lookupKey_eq_of_fold {name other : String} (same : Text.fold name = Text.fold other) :
    lookupKey name = lookupKey other := by
  rw [lookupKey, lookupKey, fold_trimSeparators, fold_trimSeparators, same]

theorem fold_join (parent child : String) :
    Text.fold (join parent child) = join (Text.fold parent) (Text.fold child) := by
  have isFolded : Text.fold (String.singleton separator) = String.singleton separator := by decide
  rw [join, Text.fold_append, Text.fold_append, isFolded]
  rfl

/-- The last segment in another case. -/
theorem fold_shortName (name : String) :
    Text.fold (shortName name) = shortName (Text.fold name) := by
  have isSegment : ∀ text, (shortName text).toList =
      (text.toList.reverse.takeWhile (fun c => !isSeparator c)).reverse :=
    fun _ => String.toList_ofList
  apply String.toList_injective
  simp only [isSegment, Text.toList_fold, ← List.map_reverse, List.takeWhile_map,
    inSegment_comp_toLower]

/-! ## References -/

theorem firstSegment_fold (reference : String) :
    firstSegment (Text.fold reference) = Text.fold (firstSegment reference) := by
  apply String.toList_injective
  simp only [firstSegment, ← Text.fold_trimBlank, Text.toList_fold, String.toList_ofList,
    List.takeWhile_map, inSegment_comp_toLower]

theorem below?_fold (reference : String) :
    below? (Text.fold reference) = (below? reference).map Text.fold := by
  simp only [below?, ← Text.fold_trimBlank, Text.toList_fold, List.dropWhile_map,
    inSegment_comp_toLower]
  cases (Text.trimBlank reference).toList.dropWhile (fun c => !isSeparator c) with
  | nil => rfl
  | cons first rest => simp [Text.fold]

/-! ## Scopes -/

namespace NameScope

/-- The scope with its namespace and the targets of its imports in lower case. -/
def folded (scope : NameScope) : NameScope :=
  ⟨Text.fold scope.namespaceName, scope.imports.map (fun entry => (entry.1, Text.fold entry.2))⟩

theorem imported?_folded (scope : NameScope) (localName : String) :
    scope.folded.imported? (Text.fold localName) =
      (scope.imported? localName).map Text.fold := by
  simp only [imported?, Text.fold_fold, folded]
  induction scope.imports with
  | nil => rfl
  | cons entry rest inductionHypothesis =>
      rw [List.map_cons, List.lookup_cons, List.lookup_cons, inductionHypothesis]
      split <;> rfl

theorem qualify_folded (scope : NameScope) (name : String) :
    scope.folded.qualify (Text.fold name) = Text.fold (scope.qualify name) := by
  simp only [qualify, folded, String.isEmpty_iff, Text.fold_eq_empty_iff]
  split
  · rfl
  · rw [fold_join]

theorem addImport_folded (scope : NameScope) (target : String) (localName : Option String) :
    scope.folded.addImport (Text.fold target) (localName.map Text.fold) =
      (scope.addImport target localName).folded := by
  simp only [addImport, ← fold_trimSeparators, String.isEmpty_iff, Text.fold_eq_empty_iff]
  split
  · rfl
  · simp only [folded, List.map_cons, ← fold_shortName]
    cases localName with
    | none => simp
    | some chosen => simp

/-- Full names in lower case are those of the scope in lower case. -/
theorem resolve_folded (scope : NameScope) (reference : String) :
    scope.folded.resolve (Text.fold reference) = Text.fold (scope.resolve reference) := by
  rw [resolve_eq, resolve_eq, firstSegment_fold, below?_fold, imported?_folded]
  cases below? reference with
  | none =>
      dsimp only [Option.map_none]
      rw [qualify_folded]
      cases scope.imported? (firstSegment reference) <;> rfl
  | some rest =>
      dsimp only [Option.map_some]
      rw [Text.sameFolded, Text.fold_fold, ← Text.sameFolded, qualify_folded, ← fold_join,
        qualify_folded]
      simp only [Text.fold_eq_empty_iff]
      split
      · rfl
      · split
        · rfl
        · cases scope.imported? (firstSegment reference) with
          | none => rfl
          | some target => exact (fold_join target rest).symm

end NameScope

end Name

end FactoryProxy
