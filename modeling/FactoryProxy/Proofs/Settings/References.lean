import FactoryProxy.Proofs.OrderedMap.Lookup
import FactoryProxy.Proofs.Sequencing
import FactoryProxy.Settings.Expansion

/-!
Contract: where the references of a template lead.

A reference leads to its name and, if that is a parameter, wherever the value of the
parameter leads. Values may refer to each other in circles, and one name may be referred
to along many ways. Expansion ends in every case; it succeeds unless a reference leads to
a name without a parameter or into a circle.

Owns: the references of templates, the agreement of expansion with them, a recursion that
keeps all parameters and a stack of the open ones, and a bound on its depth.
-/

namespace FactoryProxy.Settings

variable {parameters : Parameters} {available : Available} {opened : List String}
  {part : TemplatePart} {left right rest parts : List TemplatePart}
  {name other value text : String}

/-! ## References -/

/-- The text that a part stands for whatever the parameters are. -/
def TemplatePart.text? : TemplatePart → Option String
  | .character c => some (String.singleton c)
  | .percentSign => some "%"
  | .reference _ => none

/-- The parts refer to the name, or to a parameter whose value leads there. -/
inductive Leads (parameters : Parameters) : List TemplatePart → String → Prop where
  | refers {parts : List TemplatePart} {name : String} (member : .reference name ∈ parts) :
      Leads parameters parts name
  | through {parts : List TemplatePart} {middle value name : String}
      (member : .reference middle ∈ parts) (defined : parameters.get? middle = some value)
      (further : Leads parameters (partsOf value.toList) name) : Leads parameters parts name

/-- The value of the parameter leads back to it. -/
def IsCircular (parameters : Parameters) (name : String) : Prop :=
  ∃ value, parameters.get? name = some value ∧ Leads parameters (partsOf value.toList) name

theorem Leads.of_subset (leads : Leads parameters left name) (subset : left ⊆ right) :
    Leads parameters right name := by
  cases leads with
  | refers member => exact .refers (subset member)
  | through member defined further => exact .through (subset member) defined further

theorem leads_append :
    Leads parameters (left ++ right) name ↔
      Leads parameters left name ∨ Leads parameters right name := by
  constructor
  · intro leads
    cases leads with
    | refers member =>
        exact (List.mem_append.mp member).imp .refers .refers
    | through member defined further =>
        exact (List.mem_append.mp member).imp (fun inLeft => .through inLeft defined further)
          (fun inRight => .through inRight defined further)
  · intro either
    apply either.elim
    · exact fun leads => leads.of_subset (List.subset_append_left left right)
    · exact fun leads => leads.of_subset (List.subset_append_right left right)

/-- Parts without references lead nowhere. -/
theorem not_leads_of_plain (plain : ∀ name, .reference name ∉ parts) :
    ¬ Leads parameters parts name := by
  intro leads
  cases leads with
  | refers member => exact plain _ member
  | through member => exact plain _ member

theorem leads_cons_plain (plain : part.text? = some text) :
    Leads parameters (part :: rest) name ↔ Leads parameters rest name := by
  have nowhere : ¬ Leads parameters [part] name := by
    apply not_leads_of_plain
    intro other member
    rw [← List.mem_singleton.mp member] at plain
    cases plain
  rw [← List.singleton_append, leads_append]
  exact or_iff_right nowhere

theorem leads_reference_of_defined (defined : parameters.get? name = some value) :
    Leads parameters [.reference name] other ↔
      other = name ∨ Leads parameters (partsOf value.toList) other := by
  constructor
  · intro leads
    cases leads with
    | refers member => exact .inl (by simpa using member)
    | through member isDefined further =>
        obtain rfl : _ = name := by simpa using member
        rw [Option.some.inj (defined.symm.trans isDefined)]
        exact .inr further
  · rintro (rfl | further)
    · exact .refers (List.mem_singleton_self _)
    · exact .through (List.mem_singleton_self _) defined further

/-! ## Parameters that are not open -/

/-- The available entries are the parameters without the open ones. -/
def Remains (parameters : Parameters) (opened : List String) (available : Available) : Prop :=
  ∀ name, available.lookup name = if name ∈ opened then none else parameters.get? name

theorem remains_start (parameters : Parameters) : Remains parameters [] parameters.entries := by
  intro name
  rw [if_neg List.not_mem_nil, OrderedMap.get?_eq_lookup]

theorem Remains.without (remains : Remains parameters opened available) (name : String) :
    Remains parameters (name :: opened) (available.without name) := by
  intro other
  unfold Available.without
  rw [OrderedMap.lookup_filter_ne, remains other]
  by_cases same : other = name <;> simp [same]

theorem Remains.lookup_congr {otherAvailable : Available} {otherOpened : List String}
    (remains : Remains parameters opened available)
    (otherRemains : Remains parameters otherOpened otherAvailable)
    (same : name ∈ opened ↔ name ∈ otherOpened) :
    available.lookup name = otherAvailable.lookup name := by
  rw [remains name, otherRemains name]
  simp only [same]

theorem Remains.lookup_eq_some_iff (remains : Remains parameters opened available) :
    available.lookup name = some value ↔ name ∉ opened ∧ parameters.get? name = some value := by
  rw [remains name]
  by_cases isOpen : name ∈ opened <;> simp [isOpen]

theorem Remains.lookup_eq_none_iff (remains : Remains parameters opened available) :
    available.lookup name = none ↔ name ∈ opened ∨ parameters.get? name = none := by
  rw [remains name]
  by_cases isOpen : name ∈ opened <;> simp [isOpen]

/-! ## One part -/

theorem expandParts_plain (plain : part.text? = some text) :
    expandParts available opened (part :: rest) =
      (expandParts available opened rest).map (text ++ ·) := by
  cases part with
  | character _ | percentSign =>
      rw [expandParts, ← Option.some.inj plain]
      rfl
  | reference name => cases plain

theorem expandParts_reference_of_defined (found : available.lookup name = some value) :
    expandParts available opened (.reference name :: rest) = do
      let inner ← expandParts (available.without name) (name :: opened) (partsOf value.toList)
      let behind ← expandParts available opened rest
      return inner ++ behind := by
  rw [expandParts]
  split
  · rename_i isFound
    rw [found] at isFound
    rw [Option.some.inj isFound]
  · rename_i unknown
    rw [found] at unknown
    cases unknown

theorem expandParts_reference_of_unknown (unknown : available.lookup name = none) :
    expandParts available opened (.reference name :: rest) =
      if opened.contains name then .error (.circularParameter name)
      else .error (.missingParameter name) := by
  rw [expandParts]
  split
  · rename_i isFound
    rw [unknown] at isFound
    cases isFound
  · rfl

/-- Induction over an expansion: nothing, a part with a text of its own, a reference to an
available parameter with its value and what stands behind, and any other reference. -/
theorem expandParts_induction {motive : Available → List String → List TemplatePart → Prop}
    (nil : ∀ available opened, motive available opened [])
    (plain : ∀ available opened part rest text, TemplatePart.text? part = some text →
      motive available opened rest → motive available opened (part :: rest))
    (defined : ∀ (available : Available) opened name rest value,
      available.lookup name = some value →
      motive (available.without name) (name :: opened) (partsOf value.toList) →
      motive available opened rest → motive available opened (.reference name :: rest))
    (unavailable : ∀ (available : Available) opened name rest, available.lookup name = none →
      motive available opened (.reference name :: rest))
    (available : Available) (opened : List String) (parts : List TemplatePart) :
    motive available opened parts := by
  induction available, opened, parts using expandParts.induct with
  | case1 available opened => exact nil available opened
  | case2 available opened c rest further => exact plain _ _ (.character c) rest _ rfl further
  | case3 available opened rest further => exact plain _ _ .percentSign rest _ rfl further
  | case4 available opened name rest value found _ inner behind =>
      exact defined _ _ name rest value found inner behind
  | case5 available opened name rest unknown => exact unavailable _ _ name rest unknown
  | case6 available opened name rest unknown => exact unavailable _ _ name rest unknown

/-! ## Success -/

/-- The name is a parameter that is not open and does not lead back to itself. -/
def IsSound (parameters : Parameters) (opened : List String) (name : String) : Prop :=
  name ∉ opened ∧ (parameters.get? name).isSome = true ∧ ¬ IsCircular parameters name

/-- What a defined parameter leads to is sound below it exactly if the parameter and all that
it leads to are sound. -/
theorem isSound_below_iff (defined : parameters.get? name = some value)
    (closed : name ∉ opened) :
    (∀ other, Leads parameters (partsOf value.toList) other →
        IsSound parameters (name :: opened) other) ↔
      ∀ other, Leads parameters [.reference name] other → IsSound parameters opened other := by
  constructor
  · intro sound other leads
    rcases (leads_reference_of_defined defined).mp leads with rfl | further
    · refine ⟨closed, by rw [defined]; rfl, ?_⟩
      rintro ⟨again, isDefined, back⟩
      rw [← Option.some.inj (defined.symm.trans isDefined)] at back
      exact (sound _ back).1 List.mem_cons_self
    · obtain ⟨notOpen, isDefined, straight⟩ := sound other further
      exact ⟨fun isOpen => notOpen (List.mem_cons_of_mem _ isOpen), isDefined, straight⟩
  · intro sound other further
    obtain ⟨notOpen, isDefined, straight⟩ :=
      sound other ((leads_reference_of_defined defined).mpr (.inr further))
    refine ⟨?_, isDefined, straight⟩
    intro isOpen
    rcases List.mem_cons.mp isOpen with rfl | isOpen
    · exact straight ⟨value, defined, further⟩
    · exact notOpen isOpen

theorem not_isSound_of_unavailable (remains : Remains parameters opened available)
    (unavailable : available.lookup name = none) : ¬ IsSound parameters opened name := by
  rintro ⟨notOpen, isDefined, _⟩
  rcases remains.lookup_eq_none_iff.mp unavailable with isOpen | unknown
  · exact notOpen isOpen
  · rw [unknown] at isDefined
    cases isDefined

theorem isOk_expandParts_plain (plain : part.text? = some text) :
    (expandParts available opened (part :: rest)).isOk =
      (expandParts available opened rest).isOk := by
  rw [expandParts_plain plain]
  cases expandParts available opened rest <;> rfl

theorem isOk_expandParts_reference (found : available.lookup name = some value) :
    (expandParts available opened (.reference name :: rest)).isOk =
      ((expandParts (available.without name) (name :: opened) (partsOf value.toList)).isOk &&
        (expandParts available opened rest).isOk) := by
  rw [expandParts_reference_of_defined found]
  cases expandParts (available.without name) (name :: opened) (partsOf value.toList) with
  | error failure => rfl
  | ok inner => cases expandParts available opened rest <;> rfl

theorem isOk_expandParts_unavailable (unavailable : available.lookup name = none) :
    (expandParts available opened (.reference name :: rest)).isOk = false := by
  rw [expandParts_reference_of_unknown unavailable]
  split <;> rfl

/-- Expansion succeeds exactly if all names that the parts lead to are sound. -/
theorem isOk_expandParts_iff (remains : Remains parameters opened available) :
    (expandParts available opened parts).isOk = true ↔
      ∀ name, Leads parameters parts name → IsSound parameters opened name := by
  induction available, opened, parts using expandParts_induction with
  | nil available opened =>
      have nowhere : ∀ name, ¬ Leads parameters [] name :=
        fun name => not_leads_of_plain (fun other => List.not_mem_nil)
      simp [expandParts, nowhere, Except.isOk, Except.toBool]
  | plain available opened part rest text plain further =>
      simp only [isOk_expandParts_plain plain, leads_cons_plain plain, further remains]
  | defined available opened name rest value found inner behind =>
      obtain ⟨closed, defined⟩ := remains.lookup_eq_some_iff.mp found
      have inside := inner (remains.without name)
      rw [isSound_below_iff defined closed] at inside
      have split : ∀ other, Leads parameters (.reference name :: rest) other ↔
          Leads parameters [.reference name] other ∨ Leads parameters rest other := by
        intro other
        rw [← List.singleton_append, leads_append]
      simp only [isOk_expandParts_reference found, Bool.and_eq_true, inside, behind remains, split,
        or_imp, forall_and]
  | unavailable available opened name rest unavailable =>
      have unsound := not_isSound_of_unavailable remains unavailable
      simp only [isOk_expandParts_unavailable unavailable, Bool.false_eq_true, false_iff]
      exact fun sound => unsound (sound name (.refers List.mem_cons_self))

/-! ## Failure -/

/-- The failure names what the parts lead to: a name without a parameter, or one that is open
or circular. -/
theorem failure_of_expandParts (remains : Remains parameters opened available)
    {failure : ConfigurationFailure}
    (failed : expandParts available opened parts = .error failure) :
    ∃ name, Leads parameters parts name ∧
      (failure = .missingParameter name ∧ parameters.get? name = none ∨
        failure = .circularParameter name ∧ (name ∈ opened ∨ IsCircular parameters name)) := by
  induction available, opened, parts using expandParts_induction with
  | nil available opened => simp [expandParts] at failed
  | plain available opened part rest text plain further =>
      rw [expandParts_plain plain, Sequencing.map_eq_error] at failed
      simp only [leads_cons_plain plain]
      exact further remains failed
  | defined available opened name rest value found inner behind =>
      obtain ⟨closed, defined⟩ := remains.lookup_eq_some_iff.mp found
      rw [expandParts_reference_of_defined found, Sequencing.bind_eq_error] at failed
      rcases failed with inside | ⟨text, _, failed⟩
      · obtain ⟨other, leads, isCause⟩ := inner (remains.without name) inside
        refine ⟨other, .through List.mem_cons_self defined leads, isCause.imp_right ?_⟩
        rintro ⟨isCircularFailure, isOpen | circular⟩
        · -- The value that is being expanded may lead back to its own name.
          rcases List.mem_cons.mp isOpen with rfl | isOpen
          · exact ⟨isCircularFailure, .inr ⟨value, defined, leads⟩⟩
          · exact ⟨isCircularFailure, .inl isOpen⟩
        · exact ⟨isCircularFailure, .inr circular⟩
      · have failedBehind : expandParts available opened rest = .error failure :=
          (Sequencing.bind_eq_error.mp failed).resolve_right (by rintro ⟨_, _, failed⟩; cases failed)
        obtain ⟨other, leads, isCause⟩ := behind remains failedBehind
        exact ⟨other, leads.of_subset (List.subset_cons_self _ _), isCause⟩
  | unavailable available opened name rest unavailable =>
      refine ⟨name, .refers List.mem_cons_self, ?_⟩
      rw [expandParts_reference_of_unknown unavailable] at failed
      by_cases isOpen : name ∈ opened
      · rw [if_pos (List.contains_iff_mem.mpr isOpen)] at failed
        exact .inr ⟨(Except.error.inj failed).symm, .inl isOpen⟩
      · rw [if_neg (isOpen ∘ List.contains_iff_mem.mp)] at failed
        have unknown := (remains.lookup_eq_none_iff.mp unavailable).resolve_left isOpen
        exact .inl ⟨(Except.error.inj failed).symm, unknown⟩

/-! ## The recursion with a stack -/

/-- The text of parts, given what references stand for. The first reference without a text
ends it. -/
def textWith (meaning : String → Option (Except ConfigurationFailure String)) :
    List TemplatePart → Option (Except ConfigurationFailure String)
  | [] => some (.ok "")
  | .character c :: rest => (textWith meaning rest).map (·.map (String.singleton c ++ ·))
  | .percentSign :: rest => (textWith meaning rest).map (·.map ("%" ++ ·))
  | .reference name :: rest =>
    match meaning name with
    | some (.ok inner) => (textWith meaning rest).map (·.map (inner ++ ·))
    | failedOrNothing => failedOrNothing

theorem textWith_plain (meaning : String → Option (Except ConfigurationFailure String))
    (plain : part.text? = some text) :
    textWith meaning (part :: rest) = (textWith meaning rest).map (·.map (text ++ ·)) := by
  cases part with
  | character _ | percentSign => rw [textWith, ← Option.some.inj plain]
  | reference name => cases plain

/-- The text of parts by a recursion that keeps all parameters and the stack of the open ones,
with at most `depth` values inside each other; nothing if that is too few. -/
def expandNested (parameters : Parameters) (depth : Nat) (opened : List String)
    (parts : List TemplatePart) : Option (Except ConfigurationFailure String) :=
  textWith (fun name =>
    if opened.contains name then some (.error (.circularParameter name))
    else
      match parameters.get? name with
      | none => some (.error (.missingParameter name))
      | some value =>
        match depth with
        | 0 => none
        | below + 1 => expandNested parameters below (name :: opened) (partsOf value.toList))
    parts
termination_by structural depth

/-- As many values inside each other as there are parameters left are enough. -/
theorem expandNested_eq (remains : Remains parameters opened available) {depth : Nat}
    (enough : available.length ≤ depth) :
    expandNested parameters depth opened parts = some (expandParts available opened parts) := by
  induction available, opened, parts using expandParts_induction generalizing depth with
  | nil available opened =>
      rw [expandNested.eq_def, expandParts]
      rfl
  | plain available opened part rest text plain further =>
      rw [expandParts_plain plain, ← Option.map_some, ← further remains enough]
      rw [expandNested.eq_def, expandNested.eq_def, textWith_plain _ plain]
  | defined available opened name rest value found inner behind =>
      obtain ⟨closed, defined⟩ := remains.lookup_eq_some_iff.mp found
      have shorter := Available.length_without_lt found
      have notOpen : opened.contains name = false := by simpa using closed
      obtain ⟨below, rfl⟩ : ∃ below, depth = below + 1 := ⟨depth - 1, by omega⟩
      have inside := inner (remains.without name) (show _ ≤ below by omega)
      have outside := behind remains enough
      rw [expandNested.eq_def] at outside ⊢
      dsimp only at outside ⊢
      rw [textWith, outside, notOpen, defined, expandParts_reference_of_defined found]
      dsimp only
      rw [if_neg Bool.false_ne_true, inside]
      cases expandParts (available.without name) (name :: opened) (partsOf value.toList) with
      | error failure => rfl
      | ok text => cases expandParts available opened rest <;> rfl
  | unavailable available opened name rest unavailable =>
      rw [expandNested.eq_def, textWith, expandParts_reference_of_unknown unavailable]
      by_cases isOpen : name ∈ opened
      · have contains := List.contains_iff_mem.mpr isOpen
        rw [if_pos contains, if_pos contains]
      · have unknown := (remains.lookup_eq_none_iff.mp unavailable).resolve_left isOpen
        have lacks := isOpen ∘ List.contains_iff_mem.mp
        rw [if_neg lacks, if_neg lacks, unknown]

/-- The recursion with a stack gives the expansion of a text. -/
theorem expandNested_start (text : String) {depth : Nat} (enough : parameters.size ≤ depth) :
    (expandNested parameters depth [] (partsOf text.toList)).map
      (Except.mapError .configuration) = some (expand parameters text) := by
  rw [expandNested_eq (remains_start parameters) enough]
  rfl

/-! ## Expansion -/

/-- Of what is open only the names count that the parts lead to. -/
theorem expandParts_congr {otherAvailable : Available} {otherOpened : List String}
    (remains : Remains parameters opened available)
    (otherRemains : Remains parameters otherOpened otherAvailable)
    (alike : ∀ name, Leads parameters parts name → (name ∈ opened ↔ name ∈ otherOpened)) :
    expandParts available opened parts = expandParts otherAvailable otherOpened parts := by
  induction available, opened, parts using expandParts_induction
    generalizing otherAvailable otherOpened with
  | nil available opened => rw [expandParts, expandParts]
  | plain available opened part rest text plain further =>
      simp only [leads_cons_plain plain] at alike
      rw [expandParts_plain plain, expandParts_plain plain, further remains otherRemains alike]
  | defined available opened name rest value found inner behind =>
      have same := alike name (.refers List.mem_cons_self)
      have otherFound := (remains.lookup_congr otherRemains same).symm.trans found
      obtain ⟨_, defined⟩ := remains.lookup_eq_some_iff.mp found
      have inside : ∀ other, Leads parameters (partsOf value.toList) other →
          (other ∈ name :: opened ↔ other ∈ name :: otherOpened) := by
        intro other further
        rw [List.mem_cons, List.mem_cons, alike other (.through List.mem_cons_self defined further)]
      have outside : ∀ other, Leads parameters rest other →
          (other ∈ opened ↔ other ∈ otherOpened) :=
        fun other leads => alike other (leads.of_subset (List.subset_cons_self _ _))
      rw [expandParts_reference_of_defined found, expandParts_reference_of_defined otherFound,
        inner (remains.without name) (otherRemains.without name) inside,
        behind remains otherRemains outside]
  | unavailable available opened name rest unavailable =>
      have same := alike name (.refers List.mem_cons_self)
      have otherUnavailable := (remains.lookup_congr otherRemains same).symm.trans unavailable
      rw [expandParts_reference_of_unknown unavailable,
        expandParts_reference_of_unknown otherUnavailable]
      simp only [List.contains_iff_mem, same]

/-- Expansion ends within as many values inside each other as there are parameters. It
succeeds exactly if every name that the text leads to is a parameter and none of them leads
back to itself; otherwise it fails with such a name. -/
theorem expansion_detects_bad_references (parameters : Parameters) (text : String) :
    (∀ depth, parameters.size ≤ depth →
        (expandNested parameters depth [] (partsOf text.toList)).map
          (Except.mapError .configuration) = some (expand parameters text)) ∧
      ((∃ expanded, expand parameters text = .ok expanded) ↔
        (∀ name, Leads parameters (partsOf text.toList) name →
          (parameters.get? name).isSome = true) ∧
        ∀ name, Leads parameters (partsOf text.toList) name → ¬ IsCircular parameters name) ∧
      ∀ failure, expand parameters text = .error failure →
        ∃ cause name, failure = .configuration cause ∧
          Leads parameters (partsOf text.toList) name ∧
          (cause = .missingParameter name ∧ parameters.get? name = none ∨
            cause = .circularParameter name ∧ IsCircular parameters name) := by
  have remains := remains_start parameters
  refine ⟨?_, ?_, ?_⟩
  · exact fun depth enough => expandNested_start text enough
  · unfold expand
    simp only [Sequencing.mapError_eq_ok, ← Sequencing.isOk_iff_exists, isOk_expandParts_iff remains]
    simp only [IsSound, List.not_mem_nil, not_false_eq_true, true_and, imp_and, forall_and]
  · intro failure failed
    unfold expand at failed
    cases expanded : expandParts parameters.entries [] (partsOf text.toList) with
    | ok result =>
        rw [expanded] at failed
        cases failed
    | error cause =>
        rw [expanded] at failed
        obtain rfl := Except.error.inj failed
        obtain ⟨name, leads, isCause⟩ := failure_of_expandParts remains expanded
        simp only [List.not_mem_nil, false_or] at isCause
        exact ⟨cause, name, rfl, leads, isCause⟩

example : expandNested (.ofList [("a", "%c%"), ("b", "%c%"), ("c", "x")]) 2 []
    (partsOf "%a%%b%".toList) = some (.ok "xx") := by decide +kernel
example : expandNested (.ofList [("a", "%b%"), ("b", "%a%")]) 2 [] (partsOf "%a%".toList) =
    some (.error (.circularParameter "a")) := by decide +kernel

end FactoryProxy.Settings
