import FactoryProxy.Signature.Constructor

/-!
Contract: which parameters of a constructor are optional.

The parameters are marked from the last to the first, with one flag that falls at the first
parameter that every call needs. So the mark of a parameter speaks about all parameters from
its place on, and a default before a needed parameter does not make it optional.

Owns: the marks against the declared parameters, and the division of the parameters into
needed and optional ones.
-/

namespace FactoryProxy

theorem Parameter.omittable_iff (parameter : Parameter) :
    parameter.omittable = true ↔ parameter.defaultValue ≠ none ∨ parameter.variadic = true := by
  unfold omittable
  rw [Bool.or_eq_true, Option.isSome_iff_ne_none]

namespace Constructor

/-! ## Marks -/

/-- The flag in front of a list is what the marks before it start from. -/
theorem markOptional_snd (parameters : List Parameter) :
    (markOptional parameters).2 = parameters.all Parameter.omittable := by
  induction parameters with
  | nil => rfl
  | cons parameter rest inductionHypothesis =>
      rw [List.all_cons, Bool.and_comm, ← inductionHypothesis]
      rfl

/-- A mark is the flag of the parameters from its place on. -/
theorem getElem?_markOptional (parameters : List Parameter) (place : Nat) :
    (markOptional parameters).1[place]? = parameters[place]?.map (fun parameter =>
      { parameter with optional := (parameters.drop place).all Parameter.omittable }) := by
  induction parameters generalizing place with
  | nil => rfl
  | cons parameter rest inductionHypothesis =>
      cases place with
      | zero =>
          rw [List.drop_zero, ← markOptional_snd]
          rfl
      | succ place => exact inductionHypothesis place

theorem declared_markOptional (parameters : List Parameter) :
    (markOptional parameters).1.map Parameter.toParameterDeclaration =
      parameters.map Parameter.toParameterDeclaration := by
  apply List.ext_getElem?
  intro place
  rw [List.getElem?_map, List.getElem?_map, getElem?_markOptional, Option.map_map]
  rfl

/-- The marks that the parameters come with have no part in it. -/
theorem markOptional_congr {left right : List Parameter}
    (sameDeclared : left.map Parameter.toParameterDeclaration =
      right.map Parameter.toParameterDeclaration) : markOptional left = markOptional right := by
  induction left generalizing right with
  | nil => rw [List.map_eq_nil_iff.mp sameDeclared.symm]
  | cons first rest inductionHypothesis =>
      obtain ⟨⟨declared, mark⟩, others, rfl, rfl, sameOthers⟩ :=
        List.map_eq_cons_iff.mp sameDeclared.symm
      simp only [markOptional, inductionHypothesis sameOthers.symm]
      rfl

theorem optional_iff_of_marked {parameters : List Parameter} {place : Nat} {marked : Parameter}
    (isMarked : (markOptional parameters).1[place]? = some marked) :
    marked.optional = true ↔
      ∀ later ∈ parameters.drop place, later.defaultValue ≠ none ∨ later.variadic = true := by
  rw [getElem?_markOptional] at isMarked
  obtain ⟨parameter, _, rfl⟩ := Option.map_eq_some_iff.mp isMarked
  simp only [List.all_eq_true, Parameter.omittable_iff]

/-! ## Needed and optional parameters -/

theorem optional_of_omittable {parameters : List Parameter}
    (omittable : parameters.all Parameter.omittable = true) :
    ∀ marked ∈ (markOptional parameters).1, marked.optional = true := by
  intro marked member
  obtain ⟨place, isMarked⟩ := List.mem_iff_getElem?.mp member
  rw [optional_iff_of_marked isMarked]
  intro later isLater
  exact (Parameter.omittable_iff later).mp
    (List.all_eq_true.mp omittable later (List.mem_of_mem_drop isLater))

/-- No needed parameter stands behind an optional one. -/
theorem exists_needed_optional (parameters : List Parameter) :
    ∃ needed optional, (markOptional parameters).1 = needed ++ optional ∧
      (∀ parameter ∈ needed, parameter.optional = false) ∧
      ∀ parameter ∈ optional, parameter.optional = true := by
  induction parameters with
  | nil => exact ⟨[], [], rfl, nofun, nofun⟩
  | cons parameter rest inductionHypothesis =>
      cases flag : (markOptional (parameter :: rest)).2 with
      | true =>
          rw [markOptional_snd] at flag
          exact ⟨[], _, rfl, nofun, optional_of_omittable flag⟩
      | false =>
          obtain ⟨needed, optional, split, areNeeded, areOptional⟩ := inductionHypothesis
          refine ⟨{ parameter with optional := false } :: needed, optional, ?_, ?_, areOptional⟩
          · rw [List.cons_append, ← split, ← flag]
            rfl
          · exact List.forall_mem_cons.mpr ⟨rfl, areNeeded⟩

/-! ## Parameters of a constructor -/

/-- A constructor has the given parameters as they are declared and in their order, whatever
their marks were. One of them is optional exactly if each from its place on has a default or is
variadic, so the optional ones stand behind all others, and marking them again changes nothing. -/
theorem optional_iff_tail_omittable (visibility : Visibility) (parameters : List Parameter) :
    (ofParameters visibility parameters).visibility = visibility ∧
    (ofParameters visibility parameters).parameters.map Parameter.toParameterDeclaration =
      parameters.map Parameter.toParameterDeclaration ∧
    (∀ place marked, (ofParameters visibility parameters).parameters[place]? = some marked →
      (marked.optional = true ↔
        ∀ later ∈ parameters.drop place, later.defaultValue ≠ none ∨ later.variadic = true)) ∧
    (∃ needed optional, (ofParameters visibility parameters).parameters = needed ++ optional ∧
      (∀ parameter ∈ needed, parameter.optional = false) ∧
      ∀ parameter ∈ optional, parameter.optional = true) ∧
    ofParameters visibility (ofParameters visibility parameters).parameters =
      ofParameters visibility parameters := by
  have again : markOptional (markOptional parameters).1 = markOptional parameters :=
    markOptional_congr (declared_markOptional parameters)
  refine ⟨rfl, declared_markOptional parameters, ?_, exists_needed_optional parameters, ?_⟩
  · intro place marked isMarked
    exact optional_iff_of_marked isMarked
  · unfold ofParameters
    rw [again]

/-- Parameters with marks that all have to change but that of `needed`. -/
def mislabelled : List Parameter := [
  ⟨⟨"early", none, some "null", false, false⟩, true⟩,
  ⟨⟨"needed", none, none, false, false⟩, false⟩,
  ⟨⟨"limit", some "int", some "1", true, false⟩, false⟩,
  ⟨⟨"rest", some "string", none, false, true⟩, false⟩]

/-- The default of `early` stands before a needed parameter, that of `limit` before a variadic
one. -/
theorem default_counts_before_variadic_only :
    (ofParameters .publicAccess mislabelled).parameters.map Parameter.optional =
      [false, false, true, true] ∧
    (∀ later ∈ mislabelled.drop 2, later.defaultValue ≠ none ∨ later.variadic = true) ∧
    ¬ ∀ later ∈ mislabelled, later.defaultValue ≠ none ∨ later.variadic = true := by
  obtain ⟨_, _, marks, _, _⟩ := optional_iff_tail_omittable .publicAccess mislabelled
  have limitMarked : (ofParameters .publicAccess mislabelled).parameters[2]? =
      some ⟨⟨"limit", some "int", some "1", true, false⟩, true⟩ := rfl
  have earlyMarked : (ofParameters .publicAccess mislabelled).parameters[0]? =
      some ⟨⟨"early", none, some "null", false, false⟩, false⟩ := rfl
  refine ⟨rfl, (marks 2 _ limitMarked).mp rfl, ?_⟩
  intro allOmittable
  exact Bool.false_ne_true ((marks 0 _ earlyMarked).mpr allOmittable)

end Constructor

end FactoryProxy
