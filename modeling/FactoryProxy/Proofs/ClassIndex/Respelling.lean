import FactoryProxy.Proofs.ClassIndex.Correspondence

/-!
Contract: the spelling of references does not change what is generated.

A declaration may refer to its parent and its interfaces in any spelling, and so may a target
to its type: two spellings are of one name if their keys are equal. Indexes that differ in
such spellings only admit the same targets and give the same artifacts.

Owns: declarations and indexes in another spelling, and what they generate.

The target of a type outside the index is its name without outer white space. Targets whose
keys have such white space are left aside here.
-/

namespace FactoryProxy

namespace ClassDeclaration

/-- The declarations differ at most in how the names behind `extends` and `implements` are
spelled. -/
structure Respelled (declared other : ClassDeclaration) : Prop where
  sameParent : declared.parent.map Name.lookupKey = other.parent.map Name.lookupKey
  sameInterfaces : declared.interfaces.map Name.lookupKey = other.interfaces.map Name.lookupKey
  sameOtherwise : other =
    { declared with parent := other.parent, interfaces := other.interfaces }

namespace Respelled

variable {declared other : ClassDeclaration}

theorem sameName (respelled : declared.Respelled other) : other.name = declared.name := by
  rw [respelled.sameOtherwise]

theorem sameFile (respelled : declared.Respelled other) : other.file = declared.file := by
  rw [respelled.sameOtherwise]

/-- To the hierarchy the spelling makes no difference. -/
theorem corresponds (respelled : declared.Respelled other) : declared.Corresponds other where
  sameKey := congrArg Name.lookupKey respelled.sameName.symm
  sameKind := (congrArg ClassDeclaration.kind respelled.sameOtherwise).symm
  sameAbstractness := (congrArg ClassDeclaration.isAbstract respelled.sameOtherwise).symm
  sameParent := respelled.sameParent
  sameSupertypes := by
    have keysOf : ∀ declaration : ClassDeclaration, declaration.supertypeKeys =
        (declaration.parent.map Name.lookupKey).toList ++
          declaration.interfaces.map Name.lookupKey := by
      intro declaration
      unfold supertypeKeys supertypeNames
      cases declaration.parent <;> simp
    rw [keysOf, keysOf, respelled.sameParent, respelled.sameInterfaces]
  sameConstructor := (congrArg ClassDeclaration.constructor respelled.sameOtherwise).symm

theorem symm (respelled : declared.Respelled other) : other.Respelled declared where
  sameParent := respelled.sameParent.symm
  sameInterfaces := respelled.sameInterfaces.symm
  sameOtherwise := by
    rw [respelled.sameOtherwise]

end Respelled

end ClassDeclaration

open ClassDeclaration (Respelled)

/-- The names differ at most in their spelling. -/
def Name.SameKey (name other : String) : Prop :=
  Name.lookupKey name = Name.lookupKey other

namespace ClassIndex

/-- The indexes differ at most in the spelling of references. -/
def IsRespelled (index other : ClassIndex) : Prop :=
  Related ClassDeclaration.Respelled index other

variable {index other : ClassIndex} {declared mate : ClassDeclaration}

namespace IsRespelled

theorem symm (respelled : IsRespelled index other) : IsRespelled other index :=
  Unvisited.Related.reverse respelled (fun _ _ same => same.symm)

theorem corresponds (respelled : IsRespelled index other) :
    Related ClassDeclaration.Corresponds index other :=
  Unvisited.Related.imp respelled (fun _ _ same => same.corresponds)

/-- The files above a class are the same. -/
theorem ancestryFiles (respelled : IsRespelled index other) (same : declared.Respelled mate) :
    index.ancestryFiles declared = other.ancestryFiles mate := by
  have sameFiles : ∀ key, (index.classes.get? key).map ClassDeclaration.file =
      (other.classes.get? key).map ClassDeclaration.file := by
    intro key
    rcases respelled.get?_cases key with ⟨unknown, alsoUnknown⟩ | ⟨_, _, found, alsoFound, isSame⟩
    · rw [unknown, alsoUnknown]
    · rw [found, alsoFound, Option.map_some, Option.map_some, isSame.sameFile]
  unfold ClassIndex.ancestryFiles
  simp only [sameFiles]
  rw [respelled.corresponds.supertypes same.corresponds, same.sameFile]

theorem artifact (respelled : IsRespelled index other) (same : declared.Respelled mate)
    (namespaceName : String) :
    Artifact.ofClass index namespaceName declared = Artifact.ofClass other namespaceName mate := by
  unfold Artifact.ofClass Artifact.callerParameters
  rw [respelled.corresponds.constructorOf same.corresponds, respelled.ancestryFiles same,
    same.sameName]

/-- Declarations in another spelling are indexed together, to an index in that spelling. -/
theorem ofClasses {declarations mates : List ClassDeclaration}
    (respelled : List.Forall₂ ClassDeclaration.Respelled declarations mates)
    (built : ClassIndex.ofClasses declarations = .ok index) :
    ∃ other, ClassIndex.ofClasses mates = .ok other ∧ IsRespelled index other := by
  obtain ⟨classes, added, rfl⟩ := Sequencing.map_eq_ok.mp built
  have nothing : Unvisited.Related ClassDeclaration.Respelled
      (∅ : OrderedMap String ClassDeclaration).entries
      (∅ : OrderedMap String ClassDeclaration).entries := .nil
  obtain ⟨others, addedOthers, related⟩ := addAll_of_related
    (fun _ _ same => same.corresponds.sameKey) nothing respelled added
  exact ⟨⟨others, []⟩, Sequencing.map_eq_ok.mpr ⟨others, addedOthers, rfl⟩, related⟩

end IsRespelled

end ClassIndex

namespace TargetTypes

open ClassIndex (IsRespelled)

variable {index other : ClassIndex} {names otherNames : List String} {targets : TargetTypes}

/-- The key of the name has no white space at its ends. -/
def HasTrimmedKey (name : String) : Prop :=
  Text.trimBlank (Name.lookupKey name) = Name.lookupKey name

/-- A name that is checked is checked in another spelling too, with a target of the same
key. -/
theorem check_respelled (respelled : IsRespelled index other) {name otherName target : String}
    (sameKey : Name.SameKey name otherName) (trimmed : HasTrimmedKey name)
    (checked : check index name = .ok target) :
    ∃ otherTarget, check other otherName = .ok otherTarget ∧ Name.SameKey target otherTarget := by
  have answers := respelled.get?_cases (Name.lookupKey name)
  rw [sameKey] at answers
  unfold check ClassIndex.get? at checked ⊢
  rw [sameKey] at checked
  rcases answers with ⟨unknown, alsoUnknown⟩ | ⟨known, alsoKnown, found, alsoFound, same⟩
  · have sameReference := respelled.corresponds.isReferenced_iff sameKey
    rw [unknown] at checked
    rw [alsoUnknown]
    dsimp only at checked ⊢
    split at checked
    · rename_i referenced
      rw [if_pos (sameReference.mp referenced)]
      have alsoTrimmed : HasTrimmedKey otherName := by
        unfold HasTrimmedKey
        rw [← sameKey]
        exact trimmed
      refine ⟨_, rfl, ?_⟩
      rw [← Except.ok.inj checked]
      unfold Name.SameKey
      rw [Name.lookupKey_trimBlank trimmed, Name.lookupKey_trimBlank alsoTrimmed, sameKey]
    · cases checked
  · rw [found] at checked
    rw [alsoFound]
    dsimp only at checked ⊢
    split at checked
    · rename_i isType
      rw [same.corresponds.sameKind] at isType
      refine ⟨alsoKnown.name, if_pos isType, ?_⟩
      rw [← Except.ok.inj checked]
      exact same.corresponds.sameKey
    · cases checked

/-- Names that are checked one by one are so in another spelling too. -/
theorem checks_respelled (respelled : IsRespelled index other) {checked : List String}
    (sameKeys : List.Forall₂ Name.SameKey names otherNames)
    (trimmed : ∀ name ∈ names, HasTrimmedKey name)
    (checks : List.Forall₂ (fun name target => check index name = .ok target) names checked) :
    ∃ otherChecked,
      List.Forall₂ (fun name target => check other name = .ok target) otherNames otherChecked ∧
        List.Forall₂ Name.SameKey checked otherChecked := by
  induction sameKeys generalizing checked with
  | nil =>
      cases checks
      exact ⟨[], .nil, .nil⟩
  | cons sameKey _ inductionHypothesis =>
      obtain ⟨target, rest, isTarget, checksRest, rfl⟩ := List.forall₂_cons_left_iff.mp checks
      obtain ⟨headTrimmed, restTrimmed⟩ := List.forall_mem_cons.mp trimmed
      obtain ⟨otherTarget, isOther, sameTarget⟩ :=
        check_respelled respelled sameKey headTrimmed isTarget
      obtain ⟨otherRest, areOthers, sameRest⟩ := inductionHypothesis restTrimmed checksRest
      exact ⟨otherTarget :: otherRest, .cons isOther areOthers, .cons sameTarget sameRest⟩

/-- Names that are resolved are resolved in another spelling too, to targets of the same
keys. -/
theorem resolve_respelled (respelled : IsRespelled index other)
    (sameKeys : List.Forall₂ Name.SameKey names otherNames)
    (trimmed : ∀ name ∈ names, HasTrimmedKey name) (resolved : resolve index names = .ok targets) :
    ∃ others, resolve other otherNames = .ok others ∧
      ∀ key, (∃ target ∈ targets.names, Name.lookupKey target = key) ↔
        ∃ target ∈ others.names, Name.lookupKey target = key := by
  obtain ⟨checked, traversed, rfl⟩ := Sequencing.map_eq_ok.mp resolved
  obtain ⟨otherChecked, areChecked, sameTargets⟩ :=
    checks_respelled respelled sameKeys trimmed (Sequencing.mapM_eq_ok.mp traversed)
  refine ⟨⟨distinct [] otherChecked⟩,
    Sequencing.map_eq_ok.mpr ⟨otherChecked, Sequencing.mapM_eq_ok.mpr areChecked, rfl⟩, ?_⟩
  intro key
  rw [keys_of_distinct, keys_of_distinct]
  constructor
  · rintro ⟨target, member, rfl⟩
    obtain ⟨otherTarget, isOther, sameKey⟩ := Sequencing.exists_right sameTargets member
    exact ⟨otherTarget, isOther, sameKey.symm⟩
  · rintro ⟨otherTarget, isOther, rfl⟩
    obtain ⟨target, member, sameKey⟩ := Sequencing.exists_left sameTargets isOther
    exact ⟨target, member, sameKey⟩

/-- Names that are resolved give the same artifacts in another spelling. -/
theorem all_respelled (respelled : IsRespelled index other)
    (sameKeys : List.Forall₂ Name.SameKey names otherNames)
    (trimmed : ∀ name ∈ names, HasTrimmedKey name) (resolved : resolve index names = .ok targets)
    (namespaceName : String) :
    ∃ others, resolve other otherNames = .ok others ∧
      Artifact.all index targets namespaceName = Artifact.all other others namespaceName := by
  obtain ⟨others, isResolved, sameTargets⟩ := resolve_respelled respelled sameKeys trimmed resolved
  refine ⟨others, isResolved, ?_⟩
  have selected :=
    ClassIndex.Related.select respelled (fun _ _ same => same.corresponds) sameTargets
  have sameFactories : (targets.select index).map (Artifact.ofClass index namespaceName) =
      (others.select other).map (Artifact.ofClass other namespaceName) := by
    rw [← List.forall₂_eq_eq_eq, List.forall₂_map_left_iff, List.forall₂_map_right_iff]
    exact selected.imp (fun _ _ same => respelled.artifact same namespaceName)
  unfold Artifact.all
  rw [sameFactories]

/-- Names that are refused in another spelling are refused. -/
theorem refused_respelled (respelled : IsRespelled index other)
    (sameKeys : List.Forall₂ Name.SameKey names otherNames)
    (trimmed : ∀ name ∈ names, HasTrimmedKey name)
    (refused : ∃ failure, resolve other otherNames = .error failure) :
    ∃ failure, resolve index names = .error failure := by
  obtain ⟨failure, isRefused⟩ := refused
  cases resolved : resolve index names with
  | error cause => exact ⟨cause, rfl⟩
  | ok targets =>
      obtain ⟨others, isResolved, _⟩ := resolve_respelled respelled sameKeys trimmed resolved
      rw [isRefused] at isResolved
      cases isResolved

/-- Whatever the spelling of parents, interfaces and targets, the targets are either resolved
or refused, and the artifacts are the same. -/
theorem spelling_irrelevant (respelled : IsRespelled index other)
    (sameKeys : List.Forall₂ Name.SameKey names otherNames)
    (trimmed : ∀ name ∈ names, HasTrimmedKey name) (namespaceName : String) :
    ((∃ failure, resolve index names = .error failure) ↔
        ∃ failure, resolve other otherNames = .error failure) ∧
      ∀ targets others, resolve index names = .ok targets →
        resolve other otherNames = .ok others →
        Artifact.all index targets namespaceName = Artifact.all other others namespaceName := by
  have sameKeysBack : List.Forall₂ Name.SameKey otherNames names :=
    List.Forall₂.flip (sameKeys.imp (fun _ _ same => Eq.symm same))
  have alsoTrimmed : ∀ name ∈ otherNames, HasTrimmedKey name := by
    intro name member
    obtain ⟨mate, isMate, sameKey⟩ := Sequencing.exists_left sameKeys member
    unfold HasTrimmedKey
    rw [← sameKey]
    exact trimmed mate isMate
  refine ⟨⟨?_, ?_⟩, ?_⟩
  · exact refused_respelled respelled.symm sameKeysBack alsoTrimmed
  · exact refused_respelled respelled sameKeys trimmed
  · intro targets others resolved isOther
    obtain ⟨resolvedOthers, isResolved, sameArtifacts⟩ :=
      all_respelled respelled sameKeys trimmed resolved namespaceName
    obtain rfl := Except.ok.inj (isResolved.symm.trans isOther)
    exact sameArtifacts

/-- The classes that extend each other, with every reference spelled in another way. -/
def respelledClasses : List ClassDeclaration := [
  ⟨"D", .classKind, false, some "\\c\\", ["T"], none, ⟨"d.php"⟩, 1⟩,
  ⟨"C", .classKind, false, some "D\\", [], none, ⟨"c.php"⟩, 1⟩]

def respelledIndex : ClassIndex :=
  ⟨.ofList (respelledClasses.map (fun declared => (declared.key, declared))), []⟩

/-- A cycle of parents and an outside target are found in any spelling. -/
theorem mutual_classes_respelled :
    IsRespelled mutualIndex respelledIndex ∧
      resolve mutualIndex ["\\t"] = .ok ⟨["t"]⟩ ∧
      resolve respelledIndex ["T\\"] = .ok ⟨["T"]⟩ ∧
      Artifact.all mutualIndex ⟨["t"]⟩ "G" = Artifact.all respelledIndex ⟨["T"]⟩ "G" := by
  have sameClasses : List.Forall₂ ClassDeclaration.Respelled mutualClasses respelledClasses :=
    .cons ⟨by decide +kernel, by decide +kernel, rfl⟩
      (.cons ⟨by decide +kernel, by decide +kernel, rfl⟩ .nil)
  have built : ClassIndex.ofClasses mutualClasses = .ok mutualIndex := by decide +kernel
  have isRespelled : IsRespelled mutualIndex respelledIndex := by
    obtain ⟨other, isBuilt, respelled⟩ := IsRespelled.ofClasses sameClasses built
    have builtRespelled : ClassIndex.ofClasses respelledClasses = .ok respelledIndex := by
      decide +kernel
    rw [← Except.ok.inj (isBuilt.symm.trans builtRespelled)]
    exact respelled
  have sameTarget : List.Forall₂ Name.SameKey ["\\t"] ["T\\"] :=
    .cons (by unfold Name.SameKey; decide +kernel) .nil
  have trimmed : ∀ name ∈ ["\\t"], HasTrimmedKey name := by
    unfold HasTrimmedKey
    decide +kernel
  have resolved : resolve mutualIndex ["\\t"] = .ok ⟨["t"]⟩ := by decide +kernel
  have resolvedOther : resolve respelledIndex ["T\\"] = .ok ⟨["T"]⟩ := by decide +kernel
  exact ⟨isRespelled, resolved, resolvedOther,
    (spelling_irrelevant isRespelled sameTarget trimmed "G").2 _ _ resolved resolvedOther⟩

end TargetTypes

end FactoryProxy
