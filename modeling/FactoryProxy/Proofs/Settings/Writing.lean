import FactoryProxy.Proofs.Settings.Expansion
import FactoryProxy.Proofs.Settings.References

/-!
Contract: templates that are written out of literals and references.

Every percent sign of a literal is doubled, and a reference stands between two single ones.
Reading such a template gives the literals and the references back, whatever stands next to
each other, so its expansion is that of the pieces one after the other.

Owns: the written form of parts and texts, the agreement of reading with it, and the
expansion of written templates.
-/

namespace FactoryProxy.Settings

variable {parameters : Parameters} {part : TemplatePart} {parts : List TemplatePart}
  {name value text : String}

/-! ## Parts as they are written -/

/-- The name of a reference has at least one character, and only characters of names. -/
def IsReferenceName (name : String) : Prop :=
  name ≠ "" ∧ ∀ c ∈ name.toList, isNameCharacter c = true

instance (name : String) : Decidable (IsReferenceName name) :=
  decidable_of_iff ((name != "" && name.toList.all isNameCharacter) = true)
    (by simp [IsReferenceName])

namespace TemplatePart

def source : TemplatePart → List Char
  | .character c => [c]
  | .percentSign => ['%', '%']
  | .reference name => '%' :: (name.toList ++ ['%'])

/-- The part can be told from what is written. -/
def IsProper : TemplatePart → Prop
  | .character c => c ≠ '%'
  | .percentSign => True
  | .reference name => IsReferenceName name

end TemplatePart

/-! ## Reading what is written -/

theorem isNameCharacter_percent : isNameCharacter '%' = false := by decide +kernel

/-- A name is closed by the first percent sign if only characters of names stand before it. -/
theorem closedName?_eq_some_iff {characters found behind : List Char} :
    closedName? characters = some (found, behind) ↔
      characters = found ++ '%' :: behind ∧ ∀ c ∈ found, isNameCharacter c = true := by
  unfold closedName?
  dsimp only
  constructor
  · intro closed
    split at closed
    · rename_i isRest
      obtain ⟨rfl, rfl⟩ := Prod.mk.inj (Option.some.inj closed)
      refine ⟨?_, fun c member => List.all_eq_true.mp List.all_takeWhile c member⟩
      calc characters
          = characters.takeWhile isNameCharacter ++
              characters.drop (characters.takeWhile isNameCharacter).length :=
            (List.prefix_iff_eq_append.mp (List.takeWhile_prefix isNameCharacter)).symm
        _ = _ := by rw [isRest]
    · cases closed
  · rintro ⟨rfl, named⟩
    have stops : (found ++ '%' :: behind).takeWhile isNameCharacter = found := by
      rw [List.takeWhile_append_of_pos named, List.takeWhile_cons, isNameCharacter_percent]
      exact List.append_nil found
    rw [stops, List.drop_left]
    rfl

theorem partsOf_character {c : Char} (different : c ≠ '%') (behind : List Char) :
    partsOf (c :: behind) = .character c :: partsOf behind := by
  rw [partsOf, if_neg different]

theorem partsOf_closed {characters found behind : List Char}
    (closed : closedName? characters = some (found, behind)) :
    partsOf ('%' :: characters) =
      (if found.isEmpty then .percentSign else .reference (String.ofList found)) ::
        partsOf behind := by
  rw [partsOf, if_pos rfl]
  split
  · rename_i unclosed
    rw [closed] at unclosed
    cases unclosed
  · rename_i isClosed
    rw [closed] at isClosed
    cases isClosed
    rfl

/-- A proper part is read back, whatever is written behind it. -/
theorem partsOf_source_append (proper : part.IsProper) (behind : List Char) :
    partsOf (part.source ++ behind) = part :: partsOf behind := by
  cases part with
  | character c => exact partsOf_character proper behind
  | percentSign =>
      have closed : closedName? ('%' :: behind) = some ([], behind) :=
        closedName?_eq_some_iff.mpr ⟨rfl, fun c member => by cases member⟩
      exact partsOf_closed closed
  | reference name =>
      obtain ⟨nonempty, named⟩ := proper
      have isNonempty : name.toList.isEmpty = false := by
        simpa using nonempty
      have closed : closedName? (name.toList ++ '%' :: behind) = some (name.toList, behind) :=
        closedName?_eq_some_iff.mpr ⟨rfl, named⟩
      show partsOf ('%' :: ((name.toList ++ ['%']) ++ behind)) = _
      rw [List.append_assoc, List.singleton_append, partsOf_closed closed, isNonempty,
        String.ofList_toList]
      rfl

theorem partsOf_flatMap_source (proper : ∀ part ∈ parts, part.IsProper) (behind : List Char) :
    partsOf (parts.flatMap TemplatePart.source ++ behind) = parts ++ partsOf behind := by
  induction parts with
  | nil => rfl
  | cons part rest inductionHypothesis =>
      obtain ⟨properPart, properRest⟩ := List.forall_mem_cons.mp proper
      rw [List.flatMap_cons, List.append_assoc, partsOf_source_append properPart,
        inductionHypothesis properRest, List.cons_append]

/-- Reading loses nothing: the parts of a text, written one after the other, are the text. -/
theorem flatMap_source_partsOf (characters : List Char) :
    (partsOf characters).flatMap TemplatePart.source = characters := by
  fun_induction partsOf characters with
  | case1 => rfl
  | case2 rest unclosed inductionHypothesis =>
      rw [List.flatMap_cons, inductionHypothesis]
      rfl
  | case3 rest found behind closed _ inductionHypothesis =>
      rw [List.flatMap_cons, inductionHypothesis, (closedName?_eq_some_iff.mp closed).1]
      cases found with
      | nil => rfl
      | cons c more =>
          show '%' :: ((String.ofList (c :: more)).toList ++ ['%']) ++ behind = _
          rw [String.toList_ofList, List.cons_append, List.append_assoc, List.singleton_append]
  | case4 c rest different inductionHypothesis =>
      rw [List.flatMap_cons, inductionHypothesis]
      rfl

/-! ## Literals -/

/-- The text with every percent sign written twice. -/
def doubled (text : String) : String :=
  String.ofList (text.toList.flatMap (fun c => if c = '%' then ['%', '%'] else [c]))

/-- The part that stands for a character. -/
def literalPart (c : Char) : TemplatePart :=
  if c = '%' then .percentSign else .character c

theorem source_literalPart (c : Char) :
    (literalPart c).source = if c = '%' then ['%', '%'] else [c] := by
  unfold literalPart
  split <;> rfl

theorem isProper_literalPart (c : Char) : (literalPart c).IsProper := by
  unfold literalPart
  split
  · trivial
  · assumption

theorem text?_literalPart (c : Char) : (literalPart c).text? = some (String.singleton c) := by
  unfold literalPart
  split
  · rename_i isPercent
    rw [isPercent]
    rfl
  · rfl

theorem partsOf_doubled_append (text behind : String) :
    partsOf (doubled text ++ behind).toList =
      text.toList.map literalPart ++ partsOf behind.toList := by
  have written : (doubled text).toList = (text.toList.map literalPart).flatMap TemplatePart.source := by
    unfold doubled
    rw [String.toList_ofList, List.flatMap_map]
    simp only [source_literalPart]
  have proper : ∀ part ∈ text.toList.map literalPart, part.IsProper := by
    intro part member
    obtain ⟨c, _, rfl⟩ := List.mem_map.mp member
    exact isProper_literalPart c
  rw [String.toList_append, written, partsOf_flatMap_source proper]

/-! ## The expansion of pieces -/

theorem expand_empty (parameters : Parameters) : expand parameters "" = .ok "" :=
  expand_plain parameters List.not_mem_nil

theorem expand_eq_ok_iff {expanded : String} :
    expand parameters text = .ok expanded ↔
      expandParts parameters.entries [] (partsOf text.toList) = .ok expanded :=
  Sequencing.mapError_eq_ok

theorem expandParts_literal_append {available : Available} {opened : List String}
    (characters : List Char) :
    expandParts available opened (characters.map literalPart ++ parts) =
      (expandParts available opened parts).map (String.ofList characters ++ ·) := by
  induction characters with
  | nil =>
      rw [List.map_nil, List.nil_append]
      cases expandParts available opened parts <;> simp [Except.map]
  | cons c rest inductionHypothesis =>
      rw [List.map_cons, List.cons_append, expandParts_plain (text?_literalPart c),
        inductionHypothesis]
      cases expandParts available opened parts with
      | error failure => rfl
      | ok behind =>
          have joined : String.singleton c ++ (String.ofList rest ++ behind) =
              String.ofList (c :: rest) ++ behind := by
            apply String.toList_inj.mp
            simp
          exact congrArg Except.ok joined

/-- A doubled text gives the text, and what stands behind is expanded as it would be alone. -/
theorem expand_doubled_append (parameters : Parameters) (text behind : String) :
    expand parameters (doubled text ++ behind) = (expand parameters behind).map (text ++ ·) := by
  unfold expand
  rw [partsOf_doubled_append, expandParts_literal_append, String.ofList_toList]
  cases expandParts parameters.entries [] (partsOf behind.toList) <;> rfl

/-- A value that does not lead to the name of its parameter is expanded as it would be alone. -/
theorem expandParts_value
    (straight : ∀ other, Leads parameters (partsOf value.toList) other → other ≠ name) :
    expandParts (Available.without parameters.entries name) [name] (partsOf value.toList) =
      expandParts parameters.entries [] (partsOf value.toList) := by
  apply expandParts_congr ((remains_start parameters).without name) (remains_start parameters)
  intro other leads
  simp [straight other leads]

theorem straight_of_expanded {expanded : String} (defined : parameters.get? name = some value)
    (isExpanded : expand parameters value = .ok expanded) {other : String}
    (leads : Leads parameters (partsOf value.toList) other) : other ≠ name := by
  have succeeds := Sequencing.isOk_iff_exists.mpr ⟨expanded, expand_eq_ok_iff.mp isExpanded⟩
  obtain ⟨_, _, notCircular⟩ :=
    (isOk_expandParts_iff (remains_start parameters)).mp succeeds other leads
  rintro rfl
  exact notCircular ⟨value, defined, leads⟩

theorem expandParts_reference {inner : String} (defined : parameters.get? name = some value)
    (isExpanded : expand parameters value = .ok inner) :
    expandParts parameters.entries [] (.reference name :: parts) =
      (expandParts parameters.entries [] parts).map (inner ++ ·) := by
  have found := (remains_start parameters).lookup_eq_some_iff.mpr ⟨List.not_mem_nil, defined⟩
  have straight : ∀ other, Leads parameters (partsOf value.toList) other → other ≠ name :=
    fun other leads => straight_of_expanded defined isExpanded leads
  rw [expandParts_reference_of_defined found, expandParts_value straight,
    expand_eq_ok_iff.mp isExpanded]
  cases expandParts parameters.entries [] parts <;> rfl

theorem partsOf_reference_append (named : IsReferenceName name) (behind : String) :
    partsOf ("%" ++ name ++ "%" ++ behind).toList = .reference name :: partsOf behind.toList := by
  have proper : (TemplatePart.reference name).IsProper := named
  rw [← partsOf_source_append proper]
  simp [TemplatePart.source]

/-- A reference gives the expanded value of its parameter, and what stands behind is expanded
as it would be alone. -/
theorem expand_reference_append (named : IsReferenceName name)
    (defined : parameters.get? name = some value) {inner : String}
    (isExpanded : expand parameters value = .ok inner) (behind : String) :
    expand parameters ("%" ++ name ++ "%" ++ behind) =
      (expand parameters behind).map (inner ++ ·) := by
  unfold expand
  rw [partsOf_reference_append named, expandParts_reference defined isExpanded]
  cases expandParts parameters.entries [] (partsOf behind.toList) <;> rfl

/-- A parameter whose reference expands has a value that expands alone. -/
theorem expanded_of_reference {inner : String}
    (isExpanded : expandParts parameters.entries [] [.reference name] = .ok inner) :
    ∃ value, parameters.get? name = some value ∧ expand parameters value = .ok inner := by
  have remains := remains_start parameters
  cases found : parameters.entries.lookup name with
  | none =>
      rw [expandParts_reference_of_unknown found] at isExpanded
      split at isExpanded <;> cases isExpanded
  | some value =>
      rw [expandParts_reference_of_defined found, Sequencing.bind_eq_ok] at isExpanded
      obtain ⟨text, isText, isInner⟩ := isExpanded
      have sound := (isOk_expandParts_iff (remains.without name)).mp
        (Sequencing.isOk_iff_exists.mpr ⟨text, isText⟩)
      have straight : ∀ other, Leads parameters (partsOf value.toList) other → other ≠ name :=
        fun other leads => List.ne_of_not_mem_cons (sound other leads).1
      refine ⟨value, (remains.lookup_eq_some_iff.mp found).2, expand_eq_ok_iff.mpr ?_⟩
      rw [← expandParts_value straight, isText]
      rw [expandParts] at isInner
      rw [← Except.ok.inj isInner, String.append_empty]

/-- A reference expands exactly if its name is a parameter whose value expands, to the same
text. -/
theorem expand_reference_eq_ok_iff (named : IsReferenceName name) {inner : String} :
    expand parameters ("%" ++ name ++ "%") = .ok inner ↔
      ∃ value, parameters.get? name = some value ∧ expand parameters value = .ok inner := by
  have alone : "%" ++ name ++ "%" = "%" ++ name ++ "%" ++ "" := String.append_empty.symm
  constructor
  · intro isExpanded
    rw [alone, expand_eq_ok_iff, partsOf_reference_append named, String.toList_empty, partsOf]
      at isExpanded
    exact expanded_of_reference isExpanded
  · rintro ⟨value, defined, isExpanded⟩
    rw [alone, expand_reference_append named defined isExpanded, expand_empty]
    exact congrArg Except.ok String.append_empty

/-! ## Written templates -/

/-- A literal, and behind it references with a literal behind each. -/
def written (first : String) : List (String × String) → String
  | [] => doubled first
  | (name, literal) :: rest => doubled first ++ ("%" ++ name ++ "%" ++ written literal rest)

/-- The literals with a text for each name between them. -/
def filled (inserted : String → String) (first : String) : List (String × String) → String
  | [] => first
  | (name, literal) :: rest => first ++ (inserted name ++ filled inserted literal rest)

/-- A template in which every reference expands gives its literals and, between them, the
expanded values of the parameters. A doubled text gives the text. -/
theorem expand_written (parameters : Parameters) (first : String) (rest : List (String × String))
    (inserted : String → String) (named : ∀ piece ∈ rest, IsReferenceName piece.1)
    (isExpanded : ∀ piece ∈ rest,
      expand parameters ("%" ++ piece.1 ++ "%") = .ok (inserted piece.1)) :
    (∀ piece ∈ rest, ∃ value, parameters.get? piece.1 = some value ∧
        expand parameters value = .ok (inserted piece.1)) ∧
      expand parameters (written first rest) = .ok (filled inserted first rest) ∧
      ∀ text, expand parameters (doubled text) = .ok text := by
  have literal : ∀ text, expand parameters (doubled text) = .ok text := by
    intro text
    have expanded := expand_doubled_append parameters text ""
    rw [String.append_empty, expand_empty] at expanded
    rw [expanded]
    exact congrArg Except.ok String.append_empty
  have values : ∀ piece ∈ rest, ∃ value, parameters.get? piece.1 = some value ∧
      expand parameters value = .ok (inserted piece.1) :=
    fun piece member => (expand_reference_eq_ok_iff (named piece member)).mp
      (isExpanded piece member)
  refine ⟨values, ?_, literal⟩
  clear isExpanded
  induction rest generalizing first with
  | nil => exact literal first
  | cons piece rest inductionHypothesis =>
      obtain ⟨name, behind⟩ := piece
      obtain ⟨isName, areNames⟩ := List.forall_mem_cons.mp named
      obtain ⟨⟨value, defined, expanded⟩, areExpanded⟩ := List.forall_mem_cons.mp values
      rw [written, expand_doubled_append, expand_reference_append isName defined expanded,
        inductionHypothesis behind areNames areExpanded, filled]
      rfl

/-- A parameter whose value has a sign of its own before a reference, and one that is the
sign alone. -/
def signParameters : Parameters := .ofList [("a", "%%%b%x"), ("b", "%%")]

/-- Signs of literals and of values stand side by side and are not read again. -/
theorem neighbouring_signs_expand :
    written "%" [("a", "%a%"), ("b", "b%")] = "%%%a%%%a%%%b%b%%" ∧
      expand signParameters "%%%a%%%a%%%b%b%%" = .ok "%%%x%a%%b%" := by
  have named : ∀ piece ∈ [("a", "%a%"), ("b", "b%")], IsReferenceName piece.1 := by
    decide +kernel
  have computed : ∀ piece ∈ [("a", "%a%"), ("b", "b%")],
      (expandNested signParameters 2 [] (partsOf ("%" ++ piece.1 ++ "%").toList)).map
        (Except.mapError .configuration) =
          some (.ok (if piece.1 = "a" then "%%x" else "%") : Except Failure String) := by
    decide +kernel
  have isExpanded : ∀ piece ∈ [("a", "%a%"), ("b", "b%")],
      expand signParameters ("%" ++ piece.1 ++ "%") =
        .ok (if piece.1 = "a" then "%%x" else "%") := by
    intro piece member
    have enough : signParameters.size ≤ 2 := by decide +kernel
    exact Option.some.inj ((expandNested_start _ enough).symm.trans (computed piece member))
  have isWritten : written "%" [("a", "%a%"), ("b", "b%")] = "%%%a%%%a%%%b%b%%" := by
    decide +kernel
  have expanded := (expand_written signParameters "%" [("a", "%a%"), ("b", "b%")]
    (fun name => if name = "a" then "%%x" else "%") named isExpanded).2.1
  rw [isWritten] at expanded
  refine ⟨isWritten, ?_⟩
  rw [expanded]
  decide +kernel

end FactoryProxy.Settings
