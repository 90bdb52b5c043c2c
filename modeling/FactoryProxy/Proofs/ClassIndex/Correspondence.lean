import FactoryProxy.Proofs.ClassIndex.Inheritance
import FactoryProxy.Proofs.OrderedMap.Spelling
import FactoryProxy.Proofs.Selection

/-!
Contract: indexes whose declarations correspond give the same answers.

Of a declaration the hierarchy reads the key, the kind, the constructor and the keys of the
names it refers to. Where two indexes hold under each key declarations that agree on these,
every chain of the one is a chain of the other, so both have the same supertypes and
constructors and select classes at the same places.

Owns: entries that are related one by one, declarations that correspond, and the answers that
such indexes share.
Does not own: which changes of declarations keep them corresponding.
-/

namespace FactoryProxy

namespace ClassDeclaration

/-- The declarations are the same to the hierarchy. -/
structure Corresponds (declared other : ClassDeclaration) : Prop where
  sameKey : declared.key = other.key
  sameKind : declared.kind = other.kind
  sameAbstractness : declared.isAbstract = other.isAbstract
  sameParent : declared.parent.map Name.lookupKey = other.parent.map Name.lookupKey
  sameSupertypes : declared.supertypeKeys = other.supertypeKeys
  sameConstructor : declared.constructor = other.constructor

theorem Corresponds.symm {declared other : ClassDeclaration}
    (corresponds : declared.Corresponds other) : other.Corresponds declared where
  sameKey := corresponds.sameKey.symm
  sameKind := corresponds.sameKind.symm
  sameAbstractness := corresponds.sameAbstractness.symm
  sameParent := corresponds.sameParent.symm
  sameSupertypes := corresponds.sameSupertypes.symm
  sameConstructor := corresponds.sameConstructor.symm

end ClassDeclaration

open ClassDeclaration (Corresponds)

namespace ClassIndex

variable {relation further : ClassDeclaration → ClassDeclaration → Prop}

/-! ## Related entries -/

/-- The entries have the same keys in the same order, with related declarations. -/
def Unvisited.Related (relation : ClassDeclaration → ClassDeclaration → Prop)
    (entries others : Unvisited) : Prop :=
  List.Forall₂ (fun entry other => entry.1 = other.1 ∧ relation entry.2 other.2) entries others

namespace Unvisited.Related

variable {entries others : Unvisited}

theorem imp (related : Related relation entries others)
    (implies : ∀ declared other, relation declared other → further declared other) :
    Related further entries others :=
  List.Forall₂.imp (fun _ _ same => ⟨same.1, implies _ _ same.2⟩) related

theorem reverse (related : Related relation entries others)
    (implies : ∀ declared other, relation declared other → further other declared) :
    Related further others entries := by
  induction related with
  | nil => exact .nil
  | cons same _ inductionHypothesis =>
      exact .cons ⟨same.1.symm, implies _ _ same.2⟩ inductionHypothesis

/-- Related entries answer a look-up both with nothing or with related declarations. -/
theorem lookup_cases (related : Related relation entries others) (key : String) :
    entries.lookup key = none ∧ others.lookup key = none ∨
      ∃ declared other, entries.lookup key = some declared ∧ others.lookup key = some other ∧
        relation declared other := by
  induction related with
  | nil => exact .inl ⟨rfl, rfl⟩
  | @cons entry other _ _ same _ inductionHypothesis =>
      obtain ⟨sameKey, isRelated⟩ := same
      rw [List.lookup_cons, List.lookup_cons, ← sameKey]
      cases key == entry.1 with
      | true => exact .inr ⟨entry.2, other.2, rfl, rfl, isRelated⟩
      | false => exact inductionHypothesis

/-- Related declarations put under one key leave the entries related. -/
theorem upsert (related : Related relation entries others) (key : String)
    {declared mate : ClassDeclaration} (isRelated : relation declared mate) :
    Related relation (OrderedMap.upsertEntry key declared (fun _ => declared) entries)
      (OrderedMap.upsertEntry key mate (fun _ => mate) others) := by
  induction related with
  | nil => exact .cons ⟨rfl, isRelated⟩ .nil
  | @cons entry other _ _ same rest inductionHypothesis =>
      unfold OrderedMap.upsertEntry
      rw [← same.1]
      cases compare key entry.1 with
      | lt => exact .cons ⟨rfl, isRelated⟩ (.cons same rest)
      | eq => exact .cons ⟨rfl, isRelated⟩ rest
      | gt => exact .cons same inductionHypothesis

theorem without (related : Related relation entries others) (key : String) :
    Related relation (entries.without key) (others.without key) := by
  refine List.rel_filter ?_ related
  intro entry other same
  dsimp only
  rw [same.1]

end Unvisited.Related

/-- The indexes hold related declarations under the same keys. -/
def Related (relation : ClassDeclaration → ClassDeclaration → Prop)
    (index other : ClassIndex) : Prop :=
  Unvisited.Related relation index.classes.entries other.classes.entries

variable {index other : ClassIndex} {declared mate : ClassDeclaration} {key : String}

namespace Related

theorem get?_cases (related : Related relation index other) (key : String) :
    index.classes.get? key = none ∧ other.classes.get? key = none ∨
      ∃ declared mate, index.classes.get? key = some declared ∧
        other.classes.get? key = some mate ∧ relation declared mate := by
  rw [OrderedMap.get?_eq_lookup, OrderedMap.get?_eq_lookup]
  exact related.lookup_cases key

theorem toList (related : Related relation index other) :
    List.Forall₂ relation index.toList other.toList := by
  unfold ClassIndex.toList OrderedMap.values
  rw [List.forall₂_map_left_iff, List.forall₂_map_right_iff]
  exact List.Forall₂.imp (fun _ _ same => same.2) related

/-! ## Supertypes -/

/-- A chain of one index is a chain of the other. -/
theorem reaches (related : Related Corresponds index other) (same : declared.Corresponds mate)
    (isChain : Reaches index declared key) : Reaches other mate key := by
  induction isChain generalizing mate with
  | direct named =>
      rw [same.sameSupertypes] at named
      exact .direct named
  | @through declared above middle key named indexed _ inductionHypothesis =>
      rw [same.sameSupertypes] at named
      rcases related.get?_cases middle with
        ⟨unknown, _⟩ | ⟨found, mateAbove, isFound, inOther, sameAbove⟩
      · rw [unknown] at indexed
        cases indexed
      · rw [isFound] at indexed
        obtain rfl := Option.some.inj indexed
        exact .through named inOther (inductionHypothesis sameAbove)

theorem reaches_iff (related : Related Corresponds index other) (same : declared.Corresponds mate)
    (key : String) : Reaches index declared key ↔ Reaches other mate key := by
  have backwards : Related Corresponds other index :=
    Unvisited.Related.reverse related (fun _ _ corresponds => corresponds.symm)
  exact ⟨related.reaches same, backwards.reaches same.symm⟩

theorem supertypes (related : Related Corresponds index other)
    (same : declared.Corresponds mate) : index.supertypes declared = other.supertypes mate := by
  apply OrderedSet.eq_of_contains
  intro key
  rw [contains_supertypes_iff, contains_supertypes_iff]
  exact related.reaches_iff same key

/-- Some declaration of both indexes refers to the type, or none does. -/
theorem isReferenced_iff (related : Related Corresponds index other) {name otherName : String}
    (sameKey : Name.lookupKey name = Name.lookupKey otherName) :
    index.isReferenced name = true ↔ other.isReferenced otherName = true := by
  rw [TargetTypes.isReferenced_iff, TargetTypes.isReferenced_iff, sameKey]
  constructor
  · rintro ⟨referring, member, named⟩
    obtain ⟨mate, isMate, same⟩ := Sequencing.exists_right related.toList member
    exact ⟨mate, isMate, same.sameSupertypes ▸ named⟩
  · rintro ⟨mate, isMate, named⟩
    obtain ⟨referring, member, same⟩ := Sequencing.exists_left related.toList isMate
    exact ⟨referring, member, same.sameSupertypes ▸ named⟩

end Related

/-! ## Constructors -/

/-- Chains of parents over corresponding entries declare the same constructors in order. -/
theorem map_constructor_parentChain {entries others : Unvisited}
    (related : Unvisited.Related Corresponds entries others) (same : declared.Corresponds mate) :
    (parentChain entries declared).map ClassDeclaration.constructor =
      (parentChain others mate).map ClassDeclaration.constructor := by
  fun_induction parentChain entries declared generalizing others mate with
  | case1 entries declared orphan =>
      have alsoOrphan : mate.parent = none := by
        have sameParent := same.sameParent
        rw [orphan] at sameParent
        exact Option.map_eq_none_iff.mp sameParent.symm
      rw [parentChain, alsoOrphan, List.map_singleton, List.map_singleton, same.sameConstructor]
  | case2 entries declared parent isParent unknown =>
      obtain ⟨mateParent, isMateParent, sameKey⟩ :=
        Option.map_eq_some_iff.mp (same.sameParent.symm.trans (congrArg _ isParent))
      rcases related.lookup_cases (Name.lookupKey parent) with ⟨_, alsoUnknown⟩ | ⟨_, _, found, _⟩
      · rw [← sameKey] at alsoUnknown
        rw [parentChain_of_unknown isMateParent alsoUnknown, List.map_singleton,
          List.map_singleton, same.sameConstructor]
      · rw [unknown] at found
        cases found
  | case3 entries declared parent isParent above found _ inductionHypothesis =>
      obtain ⟨mateParent, isMateParent, sameKey⟩ :=
        Option.map_eq_some_iff.mp (same.sameParent.symm.trans (congrArg _ isParent))
      rcases related.lookup_cases (Name.lookupKey parent) with
        ⟨unknown, _⟩ | ⟨next, mateAbove, isNext, alsoFound, sameAbove⟩
      · rw [found] at unknown
        cases unknown
      · rw [found] at isNext
        obtain rfl := Option.some.inj isNext
        have sameRest := inductionHypothesis (related.without (Name.lookupKey parent)) sameAbove
        rw [← sameKey] at alsoFound
        rw [parentChain_of_known isMateParent alsoFound, List.map_cons, List.map_cons,
          same.sameConstructor, sameKey, sameRest]

namespace Related

theorem constructorOf (related : Related Corresponds index other)
    (same : declared.Corresponds mate) :
    index.constructorOf declared = other.constructorOf mate := by
  have sameChain := map_constructor_parentChain (related.without declared.key) same
  have searched : ∀ chain : List ClassDeclaration,
      chain.findSome? ClassDeclaration.constructor =
        (chain.map ClassDeclaration.constructor).findSome? id := by
    intro chain
    rw [List.findSome?_map]
    rfl
  unfold ClassIndex.constructorOf ancestors
  rw [searched, searched, sameChain, same.sameKey]

theorem isInstantiable (related : Related Corresponds index other)
    (same : declared.Corresponds mate) :
    index.isInstantiable declared = other.isInstantiable mate := by
  unfold ClassIndex.isInstantiable
  rw [related.constructorOf same, same.sameKind, same.sameAbstractness]

/-! ## Selections -/

/-- Targets with the same keys select related classes from related indexes. -/
theorem select (related : Related relation index other)
    (corresponds : ∀ declared mate, relation declared mate → declared.Corresponds mate)
    {targets others : TargetTypes}
    (sameKeys : ∀ key, (∃ target ∈ targets.names, Name.lookupKey target = key) ↔
      ∃ target ∈ others.names, Name.lookupKey target = key) :
    List.Forall₂ relation (targets.select index) (others.select other) := by
  have corresponding : Related Corresponds index other := Unvisited.Related.imp related corresponds
  refine List.rel_filter ?_ related.toList
  intro declared mate isRelated
  have same := corresponds declared mate isRelated
  have sameMatch : (targets.matchedBy index declared).isSome = true ↔
      (others.matchedBy other mate).isSome = true := by
    rw [TargetTypes.matchedBy_isSome_iff, TargetTypes.matchedBy_isSome_iff,
      TargetTypes.reaches_of_keys sameKeys]
    exact exists_congr (fun target => and_congr_right' (corresponding.reaches_iff same _))
  dsimp only
  rw [Bool.and_eq_true, Bool.and_eq_true, corresponding.isInstantiable same, sameMatch]

end Related

/-! ## Constructions -/

/-- Related declarations are indexed together. -/
theorem addAll_of_related {classes others result : OrderedMap String ClassDeclaration}
    {declared mates : List ClassDeclaration}
    (sameKey : ∀ declared mate, relation declared mate → declared.key = mate.key)
    (relatedClasses : Unvisited.Related relation classes.entries others.entries)
    (related : List.Forall₂ relation declared mates)
    (added : addAll classes declared = .ok result) :
    ∃ other, addAll others mates = .ok other ∧
      Unvisited.Related relation result.entries other.entries := by
  induction related generalizing classes others with
  | nil =>
      obtain rfl := Except.ok.inj added
      exact ⟨others, rfl, relatedClasses⟩
  | @cons head mate _ _ isRelated _ inductionHypothesis =>
      have sameHeadKey := sameKey head mate isRelated
      have sameAnswer := relatedClasses.lookup_cases head.key
      rw [← OrderedMap.get?_eq_lookup, ← OrderedMap.get?_eq_lookup] at sameAnswer
      rw [addAll] at added ⊢
      rcases sameAnswer with ⟨isNew, isNewInOthers⟩ | ⟨_, _, found, _⟩
      · rw [isNew] at added
        rw [← sameHeadKey, isNewInOthers]
        exact inductionHypothesis (relatedClasses.upsert head.key isRelated) added
      · rw [found] at added
        cases added

end ClassIndex

end FactoryProxy
