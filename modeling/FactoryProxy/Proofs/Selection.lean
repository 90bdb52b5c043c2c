import FactoryProxy.Proofs.Artifact.Naming
import FactoryProxy.Proofs.ClassIndex.Inheritance
import FactoryProxy.Proofs.ClassIndex.Reachability
import FactoryProxy.Proofs.Text.Trimming
import FactoryProxy.Selection
import Mathlib.Data.List.Nodup

/-!
Contract: which classes get a factory, in terms of the hierarchy.

Owns: the names that may be scanned for, the keys of checked targets, what the artifact of
a class is, and the exact list of artifacts.

Targets are compared by their keys. A type outside the index has no recorded spelling,
so its target is the given name with the outer white space taken off; that changes no
key as long as the index refers to no name with outer white space.
-/

namespace FactoryProxy

namespace Artifact

variable {index : ClassIndex} {namespaceName : String}

/-! ## Artifacts by their contents -/

/-- The marker is for no class, and declares and depends on nothing. -/
structure IsMarker (namespaceName : String) (artifact : Artifact) : Prop where
  isForNone : artifact.className = none
  isNamed : artifact.name = "IGeneratedFactory"
  isPlaced : artifact.namespaceName = namespaceName
  isQualified : artifact.qualified = qualifiedName namespaceName artifact.name
  isFile : artifact.file = .ofInterface namespaceName ⟨artifact.name, [], []⟩
  independent : artifact.dependencies = ∅

/-- The factory of a class is named after it and is not the marker, which it extends. Its one
method makes the class from what a caller supplies, and it is stale once a file of the class's
ancestry changes. -/
structure IsFactoryOf (index : ClassIndex) (namespaceName : String)
    (declaration : ClassDeclaration) (artifact : Artifact) : Prop where
  isForClass : artifact.className = some declaration.name
  isNamed : artifact.name =
    Name.stripSeparators declaration.name ++ "___GeneratedFactoryInterface"
  isNoMarker : Text.fold artifact.name ≠ Text.fold "IGeneratedFactory"
  isPlaced : artifact.namespaceName = namespaceName
  isQualified : artifact.qualified = qualifiedName namespaceName artifact.name
  isFile : artifact.file = .ofInterface namespaceName
    ⟨artifact.name, [qualifiedName namespaceName "IGeneratedFactory"],
      [creationMethod declaration.name (callerParameters index declaration)]⟩
  dependsOn : artifact.dependencies = index.ancestryFiles declaration

/-- The artifact is for a class with the key. -/
def isForKey (key : String) (artifact : Artifact) : Bool :=
  artifact.className.map Name.lookupKey == some key

theorem isMarker_marker (namespaceName : String) : (marker namespaceName).IsMarker namespaceName :=
  ⟨rfl, rfl, rfl, rfl, rfl, rfl⟩

theorem isFactoryOf_ofClass (index : ClassIndex) (namespaceName : String)
    (declaration : ClassDeclaration) :
    (ofClass index namespaceName declaration).IsFactoryOf index namespaceName declaration where
  isForClass := rfl
  isNamed := rfl
  isNoMarker := fold_factoryName_ne_marker declaration.name
  isPlaced := rfl
  isQualified := rfl
  isFile := rfl
  dependsOn := rfl

theorem isForKey_ofClass (key : String) (declaration : ClassDeclaration) :
    isForKey key (ofClass index namespaceName declaration) = (declaration.key == key) := by
  unfold isForKey ClassDeclaration.key
  exact Option.some_beq_some

end Artifact

namespace TargetTypes

variable {index : ClassIndex} {declared : List ClassDeclaration} {names : List String}
  {targets : TargetTypes}

/-! ## Targets -/

/-- A name that may be scanned for: that of an indexed class or interface, or one
outside the index that an indexed declaration refers to. -/
def Admitted (index : ClassIndex) (name : String) : Prop :=
  (∃ known ∈ index.toList, known.key = Name.lookupKey name ∧
      (known.kind = .classKind ∨ known.kind = .interfaceKind)) ∨
    (∀ known ∈ index.toList, known.key ≠ Name.lookupKey name) ∧
      ∃ referring ∈ index.toList, Name.lookupKey name ∈ referring.supertypeKeys

/-- No declaration refers to a name whose key has outer white space. -/
def ReferencesTrimmed (declared : List ClassDeclaration) : Prop :=
  ∀ referring ∈ declared, ∀ key ∈ referring.supertypeKeys, Text.trimBlank key = key

theorem isReferenced_iff (index : ClassIndex) (name : String) :
    index.isReferenced name = true ↔
      ∃ referring ∈ index.toList, Name.lookupKey name ∈ referring.supertypeKeys := by
  unfold ClassIndex.isReferenced ClassDeclaration.supertypeKeys
  simp only [List.any_eq_true, beq_iff_eq, List.mem_map]

theorem get?_eq_none_iff (keyed : ClassIndex.Keyed index.classes) (name : String) :
    index.get? name = none ↔ ∀ known ∈ index.toList, known.key ≠ Name.lookupKey name := by
  constructor
  · intro unknown known member same
    have found := ClassIndex.get?_of_mem_toList keyed member
    rw [same] at found
    rw [show index.get? name = some known from found] at unknown
    cases unknown
  · intro outside
    cases found : index.get? name with
    | none => rfl
    | some known =>
        have isKey := keyed _ known found
        exact absurd isKey (outside known (ClassIndex.mem_toList_of_get? found))

/-- A check fails exactly for the names that are not admitted. -/
theorem check_eq_error_iff (keyed : ClassIndex.Keyed index.classes) (name : String) :
    (∃ failure, check index name = .error failure) ↔ ¬ Admitted index name := by
  unfold check
  cases found : index.get? name with
  | some known =>
      have isKey := keyed _ known found
      have member := ClassIndex.mem_toList_of_get? found
      have onlyKnown : Admitted index name ↔
          known.kind = .classKind ∨ known.kind = .interfaceKind := by
        constructor
        · rintro (⟨other, isOther, sameKey, isType⟩ | ⟨outside, _⟩)
          · have isFound := ClassIndex.get?_of_mem_toList keyed isOther
            rw [sameKey, show index.classes.get? (Name.lookupKey name) = some known from found]
              at isFound
            rw [Option.some.inj isFound]
            exact isType
          · exact absurd isKey (outside known member)
        · intro isType
          exact .inl ⟨known, member, isKey, isType⟩
      rw [onlyKnown]
      dsimp only
      split
      · rename_i isType
        simp [isType]
      · rename_i isNoType
        simp [isNoType]
  | none =>
      have outside := (get?_eq_none_iff keyed name).mp found
      have onlyReferenced : Admitted index name ↔ index.isReferenced name = true := by
        rw [isReferenced_iff]
        constructor
        · rintro (⟨known, member, sameKey, _⟩ | ⟨_, referenced⟩)
          · exact absurd sameKey (outside known member)
          · exact referenced
        · intro referenced
          exact .inr ⟨outside, referenced⟩
      rw [onlyReferenced]
      dsimp only
      split
      · rename_i referenced
        simp [referenced]
      · rename_i unreferenced
        simp [unreferenced]

/-- A checked target has the key of its name. -/
theorem lookupKey_of_check (keyed : ClassIndex.Keyed index.classes)
    (trimmed : ReferencesTrimmed index.toList) {name target : String}
    (checked : check index name = .ok target) : Name.lookupKey target = Name.lookupKey name := by
  unfold check at checked
  cases found : index.get? name with
  | some known =>
      rw [found] at checked
      dsimp only at checked
      split at checked
      · rw [← Except.ok.inj checked]
        exact keyed _ known found
      · cases checked
  | none =>
      rw [found] at checked
      dsimp only at checked
      split at checked
      · rename_i referenced
        obtain ⟨referring, member, named⟩ := (isReferenced_iff index name).mp referenced
        rw [← Except.ok.inj checked]
        exact Name.lookupKey_trimBlank (trimmed referring member _ named)
      · cases checked

/-! ## Repeated targets -/

theorem mem_of_mem_distinct {seen : List String} {name : String}
    (member : name ∈ distinct seen names) : name ∈ names := by
  induction names generalizing seen with
  | nil => cases member
  | cons head tail inductionHypothesis =>
      unfold distinct at member
      split at member
      · exact List.mem_cons_of_mem head (inductionHypothesis member)
      · rcases List.mem_cons.mp member with isHead | inTail
        · rw [isHead]
          exact List.mem_cons_self
        · exact List.mem_cons_of_mem head (inductionHypothesis inTail)

/-- A name is kept, or one with its key is kept or came before. -/
theorem distinct_keeps_keys (seen : List String) {name : String} (member : name ∈ names) :
    Name.lookupKey name ∈ seen ∨
      ∃ kept ∈ distinct seen names, Name.lookupKey kept = Name.lookupKey name := by
  induction names generalizing seen with
  | nil => cases member
  | cons head tail inductionHypothesis =>
      unfold distinct
      by_cases repeated : Name.lookupKey head ∈ seen
      · rw [if_pos (List.contains_iff_mem.mpr repeated)]
        rcases List.mem_cons.mp member with isHead | inTail
        · rw [isHead]
          exact .inl repeated
        · exact inductionHypothesis seen inTail
      · rw [if_neg (fun isSeen => repeated (List.contains_iff_mem.mp isSeen))]
        rcases List.mem_cons.mp member with isHead | inTail
        · rw [isHead]
          exact .inr ⟨head, List.mem_cons_self, rfl⟩
        · rcases inductionHypothesis (Name.lookupKey head :: seen) inTail with
            before | ⟨kept, isKept, sameKey⟩
          · rcases List.mem_cons.mp before with isHeadKey | isSeen
            · exact .inr ⟨head, List.mem_cons_self, isHeadKey.symm⟩
            · exact .inl isSeen
          · exact .inr ⟨kept, List.mem_cons_of_mem head isKept, sameKey⟩

/-- Without repetitions the names have the keys that they had. -/
theorem keys_of_distinct (names : List String) (key : String) :
    (∃ target ∈ distinct [] names, Name.lookupKey target = key) ↔
      ∃ name ∈ names, Name.lookupKey name = key := by
  constructor
  · rintro ⟨target, isTarget, sameKey⟩
    exact ⟨target, mem_of_mem_distinct isTarget, sameKey⟩
  · rintro ⟨name, member, rfl⟩
    exact (distinct_keeps_keys [] member).resolve_left List.not_mem_nil

/-! ## Resolved targets -/

theorem resolve_eq_error_iff (keyed : ClassIndex.Keyed index.classes) (names : List String) :
    (∃ failure, resolve index names = .error failure) ↔
      ∃ name ∈ names, ¬ Admitted index name := by
  unfold resolve
  simp only [Sequencing.map_eq_error, Sequencing.mapM_eq_error, check_eq_error_iff keyed]

/-- The resolved targets have exactly the keys of the names. -/
theorem keys_of_resolve (keyed : ClassIndex.Keyed index.classes)
    (trimmed : ReferencesTrimmed index.toList) (resolved : resolve index names = .ok targets)
    (key : String) :
    (∃ target ∈ targets.names, Name.lookupKey target = key) ↔
      ∃ name ∈ names, Name.lookupKey name = key := by
  obtain ⟨checked, traversed, rfl⟩ := Sequencing.map_eq_ok.mp resolved
  have related := Sequencing.mapM_eq_ok.mp traversed
  rw [keys_of_distinct]
  constructor
  · rintro ⟨target, isTarget, rfl⟩
    obtain ⟨name, member, isChecked⟩ := Sequencing.exists_left related isTarget
    exact ⟨name, member, (lookupKey_of_check keyed trimmed isChecked).symm⟩
  · rintro ⟨name, member, rfl⟩
    obtain ⟨target, isTarget, isChecked⟩ := Sequencing.exists_right related member
    exact ⟨target, isTarget, lookupKey_of_check keyed trimmed isChecked⟩

theorem matchedBy_isSome_iff (targets : TargetTypes) (index : ClassIndex)
    (declaration : ClassDeclaration) :
    (targets.matchedBy index declaration).isSome = true ↔
      ∃ target ∈ targets.names, index.Reaches declaration (Name.lookupKey target) := by
  unfold matchedBy
  simp only [List.find?_isSome, ClassIndex.isSubclassOf_iff]

/-- Names with the same keys have the same subtypes. -/
theorem reaches_of_keys {others : List String}
    (sameKeys : ∀ key, (∃ name ∈ names, Name.lookupKey name = key) ↔
      ∃ other ∈ others, Name.lookupKey other = key) (declaration : ClassDeclaration) :
    (∃ name ∈ names, index.Reaches declaration (Name.lookupKey name)) ↔
      ∃ other ∈ others, index.Reaches declaration (Name.lookupKey other) := by
  constructor
  · rintro ⟨name, isName, reaches⟩
    obtain ⟨other, isOther, sameKey⟩ := (sameKeys _).mp ⟨name, isName, rfl⟩
    rw [← sameKey] at reaches
    exact ⟨other, isOther, reaches⟩
  · rintro ⟨other, isOther, reaches⟩
    obtain ⟨name, isName, sameKey⟩ := (sameKeys _).mpr ⟨other, isOther, rfl⟩
    rw [← sameKey] at reaches
    exact ⟨name, isName, reaches⟩

/-- The same names are resolved together, to targets that select the same classes. -/
theorem resolve_of_sameElements {otherNames : List String}
    (same : Sequencing.SameElements names otherNames)
    (resolved : resolve index names = .ok targets) :
    ∃ others, resolve index otherNames = .ok others ∧
      others.select index = targets.select index := by
  obtain ⟨checked, isChecked, rfl⟩ := Sequencing.map_eq_ok.mp resolved
  obtain ⟨otherChecked, isOtherChecked, sameChecked⟩ :=
    Sequencing.mapM_of_sameElements same isChecked
  refine ⟨⟨distinct [] otherChecked⟩,
    Sequencing.map_eq_ok.mpr ⟨otherChecked, isOtherChecked, rfl⟩, ?_⟩
  have sameKeys : ∀ key, (∃ target ∈ distinct [] otherChecked, Name.lookupKey target = key) ↔
      ∃ target ∈ distinct [] checked, Name.lookupKey target = key := by
    intro key
    rw [keys_of_distinct, keys_of_distinct]
    exact exists_congr (fun target => and_congr_left' (sameChecked target).symm)
  unfold select
  apply List.filter_congr
  intro declaration _
  congr 1
  rw [Bool.eq_iff_iff, matchedBy_isSome_iff, matchedBy_isSome_iff]
  exact reaches_of_keys sameKeys declaration

/-- The selected classes are the instantiable ones below some named target. -/
theorem mem_select_iff (keyed : ClassIndex.Keyed index.classes)
    (trimmed : ReferencesTrimmed index.toList) (resolved : resolve index names = .ok targets)
    (declaration : ClassDeclaration) :
    declaration ∈ targets.select index ↔
      declaration ∈ index.toList ∧ declaration.kind = .classKind ∧
        declaration.isAbstract = false ∧
        (∀ constructor, index.EffectiveConstructor declaration constructor →
          constructor.visibility = .publicAccess) ∧
        ∃ name ∈ names, index.Reaches declaration (Name.lookupKey name) := by
  unfold select
  rw [List.mem_filter, Bool.and_eq_true, matchedBy_isSome_iff]
  rw [reaches_of_keys (keys_of_resolve keyed trimmed resolved)]
  constructor
  · rintro ⟨indexed, instantiable, reaches⟩
    obtain ⟨isClass, concrete, isPublic⟩ :=
      (ClassIndex.isInstantiable_iff keyed indexed).mp instantiable
    exact ⟨indexed, isClass, concrete, isPublic, reaches⟩
  · rintro ⟨indexed, isClass, concrete, isPublic, reaches⟩
    exact ⟨indexed, (ClassIndex.isInstantiable_iff keyed indexed).mpr
      ⟨isClass, concrete, isPublic⟩, reaches⟩

theorem increasing_select (keyed : ClassIndex.Keyed index.classes) (targets : TargetTypes) :
    (targets.select index).Pairwise (fun left right => compare left.key right.key = .lt) :=
  (ClassIndex.increasing_toList keyed).filter _

theorem nodup_select (keyed : ClassIndex.Keyed index.classes) (targets : TargetTypes) :
    (targets.select index).Nodup := by
  refine (increasing_select keyed targets).imp ?_
  rintro declaration other below rfl
  cases below.symm.trans Std.ReflCmp.compare_self

/-- Among the selected classes only the declaration itself has its key. -/
theorem filter_select (keyed : ClassIndex.Keyed index.classes) (targets : TargetTypes)
    {declaration : ClassDeclaration} (indexed : declaration ∈ index.toList) :
    (targets.select index).filter (fun other => other.key == declaration.key) =
      if declaration ∈ targets.select index then [declaration] else [] := by
  have onlyItself : ∀ other ∈ targets.select index,
      (other.key == declaration.key) = (other == declaration) := by
    intro other isSelected
    have isFound := ClassIndex.get?_of_mem_toList keyed (List.mem_filter.mp isSelected).1
    rw [Bool.eq_iff_iff, beq_iff_eq, beq_iff_eq]
    refine ⟨fun sameKey => ?_, congrArg ClassDeclaration.key⟩
    rw [sameKey, ClassIndex.get?_of_mem_toList keyed indexed] at isFound
    exact (Option.some.inj isFound).symm
  rw [List.filter_congr onlyItself, List.filter_beq]
  split
  · rename_i isSelected
    rw [List.count_eq_one_of_mem (nodup_select keyed targets) isSelected]
    rfl
  · rename_i isLeftOut
    rw [List.count_eq_zero_of_not_mem isLeftOut]
    rfl

/-! ## The artifacts of a run -/

/-- A selected class has one artifact, its factory, and another one has none. -/
theorem filter_all (keyed : ClassIndex.Keyed index.classes) (targets : TargetTypes)
    (namespaceName : String) {declaration : ClassDeclaration}
    (indexed : declaration ∈ index.toList) :
    (Artifact.all index targets namespaceName).filter (Artifact.isForKey declaration.key) =
      if declaration ∈ targets.select index
      then [Artifact.ofClass index namespaceName declaration] else [] := by
  have isForNone : ¬ Artifact.isForKey declaration.key (Artifact.marker namespaceName) = true := by
    intro isForKey
    cases isForKey
  have sameKey : Artifact.isForKey declaration.key ∘ Artifact.ofClass index namespaceName =
      fun other => other.key == declaration.key :=
    funext (Artifact.isForKey_ofClass declaration.key)
  unfold Artifact.all
  rw [List.filter_cons_of_neg isForNone, List.filter_map, sameKey,
    filter_select keyed targets indexed]
  split
  · rfl
  · rfl

/-- Resolution fails exactly for a name that may not be scanned for. Otherwise the
artifacts are the marker and, in the order of their keys, the factories of the concrete
classes below a target whose effective constructor, if any, is public: one for each of
them and none for any other declaration. -/
theorem artifacts_exact (built : ClassIndex.ofClasses declared = .ok index)
    (trimmed : ReferencesTrimmed declared) (names : List String) (namespaceName : String) :
    ((∃ failure, resolve index names = .error failure) ↔
        ∃ name ∈ names, ¬ Admitted index name) ∧
      ∀ targets, resolve index names = .ok targets →
        ∃ selected : List ClassDeclaration,
          Artifact.all index targets namespaceName =
            Artifact.marker namespaceName ::
              selected.map (Artifact.ofClass index namespaceName) ∧
          selected.Pairwise (fun left right => compare left.key right.key = .lt) ∧
          (∀ declaration, declaration ∈ selected ↔
            declaration ∈ declared ∧ declaration.kind = .classKind ∧
              declaration.isAbstract = false ∧
              (∀ constructor, index.EffectiveConstructor declaration constructor →
                constructor.visibility = .publicAccess) ∧
              ∃ name ∈ names, index.Reaches declaration (Name.lookupKey name)) ∧
          (Artifact.marker namespaceName).IsMarker namespaceName ∧
          (∀ declaration ∈ selected,
            (Artifact.ofClass index namespaceName declaration).IsFactoryOf index namespaceName
              declaration) ∧
          (∀ declaration ∈ declared,
            (Artifact.all index targets namespaceName).filter
                (Artifact.isForKey declaration.key) =
              if declaration ∈ selected
              then [Artifact.ofClass index namespaceName declaration] else []) ∧
          (names = [] →
            Artifact.all index targets namespaceName = [Artifact.marker namespaceName]) := by
  have keyed := ClassIndex.keyed_of_ofClasses built
  have trimmedIndex : ReferencesTrimmed index.toList :=
    fun referring member => trimmed referring ((ClassIndex.mem_toList_iff built).mp member)
  refine ⟨resolve_eq_error_iff keyed names, ?_⟩
  intro targets resolved
  have exactly := mem_select_iff keyed trimmedIndex resolved
  refine ⟨targets.select index, rfl, increasing_select keyed targets, ?_,
    Artifact.isMarker_marker namespaceName,
    fun declaration _ => Artifact.isFactoryOf_ofClass index namespaceName declaration, ?_, ?_⟩
  · intro declaration
    rw [exactly, ClassIndex.mem_toList_iff built]
  · intro declaration isDeclared
    exact filter_all keyed targets namespaceName ((ClassIndex.mem_toList_iff built).mpr isDeclared)
  · rintro rfl
    have nothing : targets.select index = [] := by
      apply List.eq_nil_iff_forall_not_mem.mpr
      intro declaration member
      obtain ⟨_, _, _, _, name, isName, _⟩ := (exactly declaration).mp member
      cases isName
    unfold Artifact.all
    rw [nothing]
    rfl

/-- Two classes that extend each other, one of which implements a type outside. -/
def mutualClasses : List ClassDeclaration := [
  ⟨"D", .classKind, false, some "C", ["\\T"], none, ⟨"d.php"⟩, 1⟩,
  ⟨"C", .classKind, false, some "d", [], none, ⟨"c.php"⟩, 1⟩]

def mutualIndex : ClassIndex :=
  ⟨.ofList (mutualClasses.map (fun declared => (declared.key, declared))), []⟩

/-- Both classes of a cycle are below the outside type that one of them names, and each has
its own factory. -/
theorem artifacts_of_mutual_classes :
    ∃ selected : List ClassDeclaration,
      Artifact.all mutualIndex ⟨["t"]⟩ "G" =
        Artifact.marker "G" :: selected.map (Artifact.ofClass mutualIndex "G") ∧
      selected.map ClassDeclaration.name = ["C", "D"] ∧
      (∀ declaration ∈ selected, ∃ name ∈ ["\\t"],
        mutualIndex.Reaches declaration (Name.lookupKey name)) ∧
      ∀ declaration ∈ selected,
        (Artifact.all mutualIndex ⟨["t"]⟩ "G").filter (Artifact.isForKey declaration.key) =
            [Artifact.ofClass mutualIndex "G" declaration] ∧
          (Artifact.ofClass mutualIndex "G" declaration).IsFactoryOf mutualIndex "G"
            declaration := by
  have built : ClassIndex.ofClasses mutualClasses = .ok mutualIndex := by decide +kernel
  have trimmed : ReferencesTrimmed mutualClasses := by
    unfold ReferencesTrimmed
    decide +kernel
  have resolved : resolve mutualIndex ["\\t"] = .ok ⟨["t"]⟩ := by decide +kernel
  obtain ⟨selected, isAll, _, exactly, _, areFactories, onlyOne, _⟩ :=
    (artifacts_exact built trimmed ["\\t"] "G").2 ⟨["t"]⟩ resolved
  refine ⟨selected, isAll, ?_, ?_, ?_⟩
  · have classNames : (Artifact.all mutualIndex ⟨["t"]⟩ "G").map Artifact.className =
        none :: ["C", "D"].map some := by
      decide +kernel
    rw [isAll, List.map_cons, List.map_map] at classNames
    apply List.map_injective_iff.mpr (fun _ _ => Option.some.inj)
    rw [List.map_map]
    exact (List.cons.inj classNames).2
  · intro declaration member
    exact ((exactly declaration).mp member).2.2.2.2
  · intro declaration member
    have isOnly := onlyOne declaration ((exactly declaration).mp member).1
    rw [if_pos member] at isOnly
    exact ⟨isOnly, areFactories declaration member⟩

end TargetTypes

end FactoryProxy
