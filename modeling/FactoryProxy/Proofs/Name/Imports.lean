import FactoryProxy.Proofs.Name.Spelling
import Mathlib.Data.List.Forall2

/-!
Contract: what imports do to the names of a scope.

An import concerns the references whose first segment is its local name in any ASCII case,
unless the reference is a full name or stands below the keyword for the current namespace. Of
the imports that concern a reference the latest one decides.

Owns: imports in order, the references that an import concerns and what they mean by it, the
scope behind any number of imports, and the independence of case.
-/

namespace FactoryProxy.Name

/-- An imported name, and the name that it is given, if any. -/
structure Import where
  target : String
  localName : Option String
deriving DecidableEq, Repr

namespace Import

/-- The full name that is imported, empty if the import has no effect. -/
def fullTarget (added : Import) : String :=
  trimSeparators added.target

/-- The name under which the target is known: the given one, or its last segment. -/
def knownAs (added : Import) : String :=
  added.localName.getD (shortName added.fullTarget)

/-- The import has a target, and the reference starts with its local name: it is no full
name and not below the keyword for the current namespace. -/
def Concerns (added : Import) (reference : String) : Prop :=
  added.fullTarget ≠ "" ∧ ¬ IsComplete reference ∧ ¬ IsKeywordRelative reference ∧
    Text.sameFolded (firstSegment reference) added.knownAs = true

instance (added : Import) (reference : String) : Decidable (added.Concerns reference) :=
  inferInstanceAs (Decidable (_ ∧ _ ∧ _ ∧ _))

/-- The full name of a reference that the import concerns: the target in place of the first
segment. -/
def meaning (added : Import) (reference : String) : String :=
  extended added.fullTarget (below? reference)

/-- The same import up to the case of ASCII letters. -/
structure SameFolded (added other : Import) : Prop where
  target : Text.sameFolded added.target other.target = true
  localName : Option.Rel (fun given spelled => Text.sameFolded given spelled = true)
    added.localName other.localName

end Import

namespace NameScope

variable {scope other : NameScope} {added : Import} {reference : String}

/-- The scope behind one import. -/
def afterImport (scope : NameScope) (added : Import) : NameScope :=
  scope.addImport added.target added.localName

/-- The scope behind imports in order. -/
def afterImports (scope : NameScope) (history : List Import) : NameScope :=
  history.foldl afterImport scope

/-! ## One import -/

theorem afterImport_of_empty (isEmpty : added.fullTarget = "") :
    scope.afterImport added = scope := by
  have noTarget : (trimSeparators added.target).isEmpty = true := String.isEmpty_iff.mpr isEmpty
  simp only [afterImport, addImport, noTarget, if_true]

/-- An import with a target is found under its local name, and hides no other name. -/
theorem imported?_afterImport (hasTarget : added.fullTarget ≠ "") (localName : String) :
    (scope.afterImport added).imported? localName =
      if Text.sameFolded localName added.knownAs then some added.fullTarget
      else scope.imported? localName := by
  have isTarget : ¬ (trimSeparators added.target).isEmpty = true :=
    fun isEmpty => hasTarget (String.isEmpty_iff.mp isEmpty)
  simp only [afterImport, addImport, if_neg isTarget, imported?, List.lookup_cons]
  unfold Text.sameFolded Import.knownAs Import.fullTarget
  split <;> rename_i isKnown <;> simp [isKnown]

theorem namespaceName_afterImport (scope : NameScope) (added : Import) :
    (scope.afterImport added).namespaceName = scope.namespaceName := by
  unfold afterImport addImport
  dsimp only
  split <;> rfl

theorem qualify_afterImport (scope : NameScope) (added : Import) (name : String) :
    (scope.afterImport added).qualify name = scope.qualify name := by
  unfold qualify
  rw [namespaceName_afterImport]

/-- An import decides the references that it concerns and leaves all others as they were. -/
theorem resolve_afterImport (scope : NameScope) (added : Import) (reference : String) :
    (scope.afterImport added).resolve reference =
      if added.Concerns reference then added.meaning reference else scope.resolve reference := by
  by_cases complete : IsComplete reference
  · rw [resolve_of_complete complete, resolve_of_complete complete,
      if_neg (fun concerns => concerns.2.1 complete)]
  by_cases relative : IsKeywordRelative reference
  · rw [resolve_of_keywordRelative relative, resolve_of_keywordRelative relative,
      qualify_afterImport, if_neg (fun concerns => concerns.2.2.1 relative)]
  by_cases isEmpty : added.fullTarget = ""
  · rw [afterImport_of_empty isEmpty, if_neg (fun concerns => concerns.1 isEmpty)]
  rw [resolve_of_local complete relative, resolve_of_local complete relative,
    imported?_afterImport isEmpty, qualify_afterImport]
  by_cases isKnown : Text.sameFolded (firstSegment reference) added.knownAs = true
  · have concerns : added.Concerns reference := ⟨isEmpty, complete, relative, isKnown⟩
    rw [if_pos isKnown, if_pos concerns]
    rfl
  · rw [if_neg isKnown, if_neg (fun concerns => isKnown concerns.2.2.2)]

/-! ## Any number of imports -/

theorem afterImports_cons (scope : NameScope) (first : Import) (rest : List Import) :
    scope.afterImports (first :: rest) = (scope.afterImport first).afterImports rest := by
  unfold afterImports
  rw [List.foldl_cons]

theorem afterImports_append (scope : NameScope) (earlier later : List Import) :
    scope.afterImports (earlier ++ later) = (scope.afterImports earlier).afterImports later :=
  List.foldl_append

/-- Imports that concern none of it leave a reference as it was. -/
theorem resolve_afterImports_of_unconcerned {history : List Import}
    (unconcerned : ∀ added ∈ history, ¬ added.Concerns reference) :
    (scope.afterImports history).resolve reference = scope.resolve reference := by
  induction history generalizing scope with
  | nil => rfl
  | cons first rest inductionHypothesis =>
      have ofRest : ((scope.afterImport first).afterImports rest).resolve reference =
          (scope.afterImport first).resolve reference :=
        inductionHypothesis (fun added member => unconcerned added (List.mem_cons_of_mem _ member))
      rw [afterImports_cons, ofRest, resolve_afterImport,
        if_neg (unconcerned first List.mem_cons_self)]

/-- The latest import that concerns a reference decides. -/
theorem resolve_afterImports_of_latest {earlier later : List Import} {latest : Import}
    (concerns : latest.Concerns reference)
    (unconcerned : ∀ added ∈ later, ¬ added.Concerns reference) :
    (scope.afterImports (earlier ++ latest :: later)).resolve reference =
      latest.meaning reference := by
  rw [afterImports_append, afterImports_cons, resolve_afterImports_of_unconcerned unconcerned,
    resolve_afterImport, if_pos concerns]

/-! ## Imports in another case -/

theorem fold_knownNames {given spelled : Option String}
    (same : Option.Rel (fun given spelled => Text.sameFolded given spelled = true) given spelled) :
    given.map Text.fold = spelled.map Text.fold := by
  cases same with
  | none => rfl
  | some sameName => exact congrArg some (beq_iff_eq.mp sameName)

theorem folded_afterImport {spelled : Import} (sameScope : scope.folded = other.folded)
    (same : added.SameFolded spelled) :
    (scope.afterImport added).folded = (other.afterImport spelled).folded := by
  unfold afterImport
  rw [← addImport_folded, ← addImport_folded, sameScope, beq_iff_eq.mp same.target,
    fold_knownNames same.localName]

theorem folded_afterImports {history respelled : List Import}
    (same : List.Forall₂ Import.SameFolded history respelled)
    (sameScope : scope.folded = other.folded) :
    (scope.afterImports history).folded = (other.afterImports respelled).folded := by
  induction same generalizing scope other with
  | nil => exact sameScope
  | cons ofFirst _ inductionHypothesis =>
      rw [afterImports_cons, afterImports_cons]
      exact inductionHypothesis (folded_afterImport sameScope ofFirst)

/-- Scopes and references that agree up to case give names that agree up to case. -/
theorem lookupKey_resolve {spelled : String} (sameScope : scope.folded = other.folded)
    (same : Text.sameFolded reference spelled = true) :
    lookupKey (scope.resolve reference) = lookupKey (other.resolve spelled) := by
  apply lookupKey_eq_of_fold
  rw [← resolve_folded, ← resolve_folded, sameScope, beq_iff_eq.mp same]

/-- Behind any imports, references that differ in ASCII case have full names with one key, and
imports that differ in ASCII case give every reference the same key. A further import changes
only references that it concerns, and of all imports that concern a reference the latest one
gives its full name; without one it is what it is without imports. -/
theorem imports_act_on_local_name (namespaceName : String) (history : List Import) :
    let scope := (ofNamespace namespaceName).afterImports history
    (∀ reference spelled, Text.sameFolded reference spelled = true →
      lookupKey (scope.resolve reference) = lookupKey (scope.resolve spelled)) ∧
    (∀ respelled, List.Forall₂ Import.SameFolded history respelled → ∀ reference,
      lookupKey (((ofNamespace namespaceName).afterImports respelled).resolve reference) =
        lookupKey (scope.resolve reference)) ∧
    (∀ added reference, (scope.afterImport added).resolve reference ≠ scope.resolve reference →
      added.Concerns reference) ∧
    (∀ earlier latest later reference, history = earlier ++ latest :: later →
      latest.Concerns reference → (∀ added ∈ later, ¬ added.Concerns reference) →
      scope.resolve reference = latest.meaning reference) ∧
    ∀ reference, (∀ added ∈ history, ¬ added.Concerns reference) →
      scope.resolve reference = (ofNamespace namespaceName).resolve reference := by
  refine ⟨?_, ?_, ?_, ?_, ?_⟩
  · intro reference spelled same
    exact lookupKey_resolve rfl same
  · intro respelled same reference
    exact (lookupKey_resolve (folded_afterImports same rfl) (beq_self_eq_true _)).symm
  · intro added reference isOther
    refine Decidable.byContradiction (fun unconcerned => isOther ?_)
    exact (resolve_afterImport _ added reference).trans (if_neg unconcerned)
  · rintro earlier latest later reference rfl concerns unconcerned
    exact resolve_afterImports_of_latest concerns unconcerned
  · intro reference unconcerned
    exact resolve_afterImports_of_unconcerned unconcerned

/-- Two imports of one local name in different cases, and one with a name of its own. -/
def shadowingImports : List Import := [
  ⟨"Vendor\\Base", none⟩, ⟨"\\Vendor\\Contracts\\", some "C"⟩, ⟨"Other\\bASE", none⟩]

/-- The later import of `base` decides, and the other one is read in any case. -/
theorem later_import_of_base_decides :
    ((ofNamespace "App").afterImports shadowingImports).resolve "BASE" = "Other\\bASE" ∧
      ((ofNamespace "App").afterImports shadowingImports).resolve "App" = "App\\App" ∧
      lookupKey (((ofNamespace "App").afterImports shadowingImports).resolve "c\\X") =
        lookupKey (((ofNamespace "App").afterImports shadowingImports).resolve "C\\x") ∧
      lookupKey (((ofNamespace "App").afterImports [⟨"vendor\\BASE", none⟩,
          ⟨"\\VENDOR\\contracts\\", some "c"⟩, ⟨"other\\Base", none⟩]).resolve "C\\x") =
        lookupKey (((ofNamespace "App").afterImports shadowingImports).resolve "C\\x") ∧
      Import.Concerns ⟨"Third\\Base", none⟩ "base\\Y" := by
  obtain ⟨anyCase, respelled, onlyConcerned, ofLatest, ofNone⟩ :=
    imports_act_on_local_name "App" shadowingImports
  refine ⟨?_, ?_, ?_, ?_, ?_⟩
  · exact ofLatest [⟨"Vendor\\Base", none⟩, ⟨"\\Vendor\\Contracts\\", some "C"⟩] ⟨"Other\\bASE", none⟩
      [] "BASE" rfl (by decide +kernel) (by decide +kernel)
  · exact ofNone "App" (by decide +kernel)
  · exact anyCase "c\\X" "C\\x" (by decide +kernel)
  · apply respelled
    refine .cons ⟨by decide +kernel, .none⟩ (.cons ⟨by decide +kernel, .some ?_⟩
      (.cons ⟨by decide +kernel, .none⟩ .nil))
    decide +kernel
  · exact onlyConcerned ⟨"Third\\Base", none⟩ "base\\Y" (by decide +kernel)

end NameScope

end FactoryProxy.Name
