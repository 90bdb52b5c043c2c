import FactoryProxy.Loading.ProxyLoader
import FactoryProxy.Proofs.Sequencing
import Mathlib.Data.Finset.Card

/-!
Contract: the hooks of registered loaders.

A host tells loaders apart by their identities, which are texts made of the directory and
the namespace with a colon between them. Loaders are equal if their directories have the
same components and their namespaces are equal. The two agree unless a directory has two
spellings or a colon stands in a namespace.

Owns: the registration of one loader after another, the hooks it leaves, and when these are
one for each loader.
-/

namespace FactoryProxy.ProxyLoader

open Sequencing

variable {κ : Type} [DecidableEq κ] {key : ProxyLoader → κ} {loader left right : ProxyLoader}
  {loaders former kept : List ProxyLoader} {host next : Autoloader}

/-! ## Identities -/

/-- What makes loaders equal: where the directory is, and the namespace. -/
def value (loader : ProxyLoader) : List Path.Component × String :=
  (loader.directory.components, loader.namespaceName)

/-- What stands between two colons belongs to the namespace of the left loader and to the
directory of the right one. -/
def ColonMoved (left right : ProxyLoader) : Prop :=
  ∃ middle, right.directory.text = left.directory.text ++ ":" ++ middle ∧
    left.namespaceName = middle ++ ":" ++ right.namespaceName

theorem id_eq_iff_toList : left.id = right.id ↔
    left.directory.text.toList ++ ':' :: left.namespaceName.toList =
      right.directory.text.toList ++ ':' :: right.namespaceName.toList := by
  unfold ProxyLoader.id
  rw [← String.toList_inj]
  simp

theorem colonMoved_iff_toList : ColonMoved left right ↔
    ∃ middle, right.directory.text.toList = left.directory.text.toList ++ ':' :: middle ∧
      left.namespaceName.toList = middle ++ ':' :: right.namespaceName.toList := by
  unfold ColonMoved
  constructor
  · rintro ⟨middle, isDirectory, isNamespace⟩
    exact ⟨middle.toList, by simp [isDirectory], by simp [isNamespace]⟩
  · rintro ⟨middle, isDirectory, isNamespace⟩
    exact ⟨String.ofList middle, String.toList_inj.mp (by simp [isDirectory]),
      String.toList_inj.mp (by simp [isNamespace])⟩

/-- Two texts with a colon in each are equal exactly if the colons have one place, or each of
them also stands in the other text. -/
theorem append_colon_eq_iff {before behind otherBefore otherBehind : List Char} :
    before ++ ':' :: behind = otherBefore ++ ':' :: otherBehind ↔
      (before = otherBefore ∧ behind = otherBehind) ∨
      (∃ middle, otherBefore = before ++ ':' :: middle ∧
        behind = middle ++ ':' :: otherBehind) ∨
      ∃ middle, before = otherBefore ++ ':' :: middle ∧
        otherBehind = middle ++ ':' :: behind := by
  constructor
  · intro same
    rcases List.append_eq_append_iff.mp same with
      ⟨between, isOther, isBehind⟩ | ⟨between, isBefore, isOtherBehind⟩
    · cases between with
      | nil =>
          rw [List.append_nil] at isOther
          exact .inl ⟨isOther.symm, (List.cons.inj isBehind).2⟩
      | cons first middle =>
          obtain ⟨rfl, rest⟩ := List.cons.inj isBehind
          exact .inr (.inl ⟨middle, isOther, rest⟩)
    · cases between with
      | nil =>
          rw [List.append_nil] at isBefore
          exact .inl ⟨isBefore, (List.cons.inj isOtherBehind).2.symm⟩
      | cons first middle =>
          obtain ⟨rfl, rest⟩ := List.cons.inj isOtherBehind
          exact .inr (.inr ⟨middle, isBefore, rest⟩)
  · rintro (⟨rfl, rfl⟩ | ⟨middle, rfl, rfl⟩ | ⟨middle, rfl, rfl⟩)
    · rfl
    · rw [List.append_assoc, List.cons_append]
    · rw [List.append_assoc, List.cons_append]

theorem eq_iff_toList : left = right ↔
    left.directory.text.toList = right.directory.text.toList ∧
      left.namespaceName.toList = right.namespaceName.toList := by
  obtain ⟨⟨directory⟩, namespaceName⟩ := left
  obtain ⟨⟨otherDirectory⟩, otherNamespace⟩ := right
  simp [String.toList_inj]

/-- Identities are equal exactly if the loaders are written alike or a colon has moved. -/
theorem id_eq_iff (left right : ProxyLoader) :
    left.id = right.id ↔ left = right ∨ ColonMoved left right ∨ ColonMoved right left := by
  rw [id_eq_iff_toList, append_colon_eq_iff, eq_iff_toList, colonMoved_iff_toList,
    colonMoved_iff_toList]

/-- Namespaces without colons leave no doubt where the directory ends. -/
theorem eq_of_id (leftPlain : ':' ∉ left.namespaceName.toList)
    (rightPlain : ':' ∉ right.namespaceName.toList) (same : left.id = right.id) :
    left = right := by
  rcases (id_eq_iff left right).mp same with written | moved | moved
  · exact written
  · obtain ⟨middle, _, isNamespace⟩ := colonMoved_iff_toList.mp moved
    rw [isNamespace] at leftPlain
    exact absurd (List.mem_append_right middle List.mem_cons_self) leftPlain
  · obtain ⟨middle, _, isNamespace⟩ := colonMoved_iff_toList.mp moved
    rw [isNamespace] at rightPlain
    exact absurd (List.mem_append_right middle List.mem_cons_self) rightPlain

/-! ## Registration -/

/-- Registers loaders one after another. -/
def registerAll (host : Autoloader) (loaders : List ProxyLoader) : Except Failure Autoloader :=
  loaders.foldlM (fun host loader => loader.register host) host

/-- The kept loaders are one for each key of the registered ones. -/
structure KeepsOneEach (key : ProxyLoader → κ) (loaders kept : List ProxyLoader) : Prop where
  sublist : kept.Sublist loaders
  apart : (kept.map key).Nodup
  covers : ∀ loader ∈ loaders, key loader ∈ kept.map key

omit [DecidableEq κ] in
theorem KeepsOneEach.mem_iff (keeps : KeepsOneEach key loaders kept) {value : κ} :
    value ∈ kept.map key ↔ value ∈ loaders.map key := by
  constructor
  · intro member
    exact (keeps.sublist.map key).subset member
  · intro member
    obtain ⟨loader, isLoader, rfl⟩ := List.mem_map.mp member
    exact keeps.covers loader isLoader

/-- There are as many kept loaders as different keys. -/
theorem KeepsOneEach.length_eq (keeps : KeepsOneEach key loaders kept) :
    kept.length = (loaders.map key).toFinset.card := by
  have sameKeys : (kept.map key).toFinset = (loaders.map key).toFinset := by
    ext value
    rw [List.mem_toFinset, List.mem_toFinset, keeps.mem_iff]
  rw [← sameKeys, List.toFinset_card_of_nodup keeps.apart, List.length_map]

/-- The hooks of a host that takes resolvers are those of loaders kept by their identities. -/
structure HasHooks (loaders kept : List ProxyLoader) (host : Autoloader) : Prop where
  takes : host.takesResolvers = true
  hooks : host.resolvers = kept.map resolver
  keeps : KeepsOneEach ProxyLoader.id loaders kept

theorem hasHooks_empty : HasHooks [] [] .empty where
  takes := rfl
  hooks := rfl
  keeps := ⟨.slnil, List.nodup_nil, List.forall_mem_nil _⟩

theorem HasHooks.isRegistered_iff (hasHooks : HasHooks loaders kept host) :
    loader.isRegistered host = true ↔ loader.id ∈ loaders.map ProxyLoader.id := by
  rw [← hasHooks.keeps.mem_iff]
  unfold isRegistered Autoloader.isRegistered
  rw [hasHooks.hooks, List.any_map, List.any_eq_true, List.mem_map]
  simp [resolver]

/-- A registration adds a hook exactly if the identity is new. -/
theorem register_eq (takes : host.takesResolvers = true) (loader : ProxyLoader) :
    loader.register host =
      .ok (if loader.isRegistered host then host
        else { host with resolvers := host.resolvers ++ [loader.resolver] }) := by
  have sameTest : host.isRegistered loader.resolver.id = loader.isRegistered host := rfl
  unfold ProxyLoader.register Autoloader.register
  rw [takes, sameTest]
  cases loader.isRegistered host with
  | true => rfl
  | false => rfl

theorem HasHooks.register (hasHooks : HasHooks former kept host) (loader : ProxyLoader) :
    ∃ next further, loader.register host = .ok next ∧
      HasHooks (former ++ [loader]) further next := by
  have registered := register_eq hasHooks.takes loader
  by_cases present : loader.isRegistered host = true
  · rw [if_pos present] at registered
    refine ⟨host, kept, registered, hasHooks.takes, hasHooks.hooks, ?_, hasHooks.keeps.apart, ?_⟩
    · exact hasHooks.keeps.sublist.trans (List.sublist_append_left former [loader])
    · refine List.forall_mem_append.mpr ⟨hasHooks.keeps.covers, ?_⟩
      refine List.forall_mem_singleton.mpr (hasHooks.keeps.mem_iff.mpr ?_)
      exact hasHooks.isRegistered_iff.mp present
  · rw [if_neg present] at registered
    refine ⟨_, kept ++ [loader], registered, hasHooks.takes, ?_, ?_, ?_, ?_⟩
    · rw [hasHooks.hooks, List.map_append, List.map_singleton]
    · exact hasHooks.keeps.sublist.append_right [loader]
    · have isNew : loader.id ∉ kept.map ProxyLoader.id := by
        intro member
        exact present (hasHooks.isRegistered_iff.mpr (hasHooks.keeps.mem_iff.mp member))
      rw [List.map_append, List.nodup_append_comm]
      exact List.nodup_cons.mpr ⟨isNew, hasHooks.keeps.apart⟩
    · rw [List.map_append]
      refine List.forall_mem_append.mpr ⟨fun registered member => ?_, ?_⟩
      · exact List.mem_append_left _ (hasHooks.keeps.covers registered member)
      · exact List.forall_mem_singleton.mpr (List.mem_append_right _ List.mem_cons_self)

theorem HasHooks.registerAll (hasHooks : HasHooks former kept host)
    (loaders : List ProxyLoader) :
    ∃ next further, ProxyLoader.registerAll host loaders = .ok next ∧
      HasHooks (former ++ loaders) further next := by
  unfold ProxyLoader.registerAll
  induction loaders generalizing former kept host with
  | nil => exact ⟨host, kept, rfl, by rwa [List.append_nil]⟩
  | cons loader loaders inductionHypothesis =>
      obtain ⟨middle, more, registers, hasMore⟩ := hasHooks.register loader
      obtain ⟨next, further, registersAll, hasAll⟩ := inductionHypothesis hasMore
      rw [List.append_assoc, List.singleton_append] at hasAll
      exact ⟨next, further, bind_eq_ok.mpr ⟨middle, registers, registersAll⟩, hasAll⟩

/-! ## One hook for each loader -/

/-- The host has one hook for each key of the registered loaders. A loader under
consideration is shown as registered exactly if one with its key is. -/
structure HasOneHookEach (key : ProxyLoader → κ) (considered : Set ProxyLoader)
    (loaders : List ProxyLoader) (host : Autoloader) : Prop where
  hooks : ∃ kept, host.resolvers = kept.map resolver ∧ KeepsOneEach key loaders kept
  count : host.resolvers.length = (loaders.map key).toFinset.card
  state : ∀ loader ∈ considered,
    loader.isRegistered host = true ↔ key loader ∈ loaders.map key

theorem HasHooks.hasOneHookEach (hasHooks : HasHooks loaders kept host) :
    HasOneHookEach ProxyLoader.id Set.univ loaders host where
  hooks := ⟨kept, hasHooks.hooks, hasHooks.keeps⟩
  count := by
    rw [hasHooks.hooks, List.length_map, hasHooks.keeps.length_eq]
  state := fun _ _ => hasHooks.isRegistered_iff

/-- Loaders on which the identity agrees with equality have one hook for each of them. -/
theorem HasHooks.hasOneHookEach_value {considered : Set ProxyLoader}
    (hasHooks : HasHooks loaders kept host) (inside : ∀ loader ∈ loaders, loader ∈ considered)
    (agree : ∀ left ∈ considered, ∀ right ∈ considered,
      left.id = right.id ↔ left.value = right.value) :
    HasOneHookEach value considered loaders host := by
  have isInside : ∀ loader ∈ kept, loader ∈ considered :=
    fun loader member => inside loader (hasHooks.keeps.sublist.subset member)
  have sameMembers : ∀ loader ∈ considered, ∀ others : List ProxyLoader,
      (∀ other ∈ others, other ∈ considered) →
        (loader.id ∈ others.map ProxyLoader.id ↔ loader.value ∈ others.map value) := by
    intro loader isConsidered others areConsidered
    rw [List.mem_map, List.mem_map]
    exact exists_congr (fun other => and_congr_right
      (fun member => agree other (areConsidered other member) loader isConsidered))
  have keeps : KeepsOneEach value loaders kept := by
    refine ⟨hasHooks.keeps.sublist, ?_, fun loader member => ?_⟩
    · have apart := List.pairwise_map.mp hasHooks.keeps.apart
      refine List.pairwise_map.mpr (apart.imp_of_mem ?_)
      intro left right isLeft isRight different same
      exact different ((agree left (isInside left isLeft) right (isInside right isRight)).mpr same)
    · exact (sameMembers loader (inside loader member) kept isInside).mp
        (hasHooks.keeps.covers loader member)
  refine ⟨⟨kept, hasHooks.hooks, keeps⟩, ?_, fun loader isConsidered => ?_⟩
  · rw [hasHooks.hooks, List.length_map, keeps.length_eq]
  · rw [hasHooks.isRegistered_iff]
    exact sameMembers loader isConsidered loaders inside

/-- Loaders are always registered, with one hook for each identity. Among given loaders the
hooks are one for each loader, whichever of them are registered, exactly if the identity
agrees with equality. Identities are equal exactly if the loaders are written alike or a
colon has moved. -/
theorem one_hook_per_loader_iff (considered : Set ProxyLoader) :
    (∀ loaders, ∃ host, registerAll .empty loaders = .ok host ∧
      HasOneHookEach ProxyLoader.id Set.univ loaders host) ∧
    ((∀ loaders host, (∀ loader ∈ loaders, loader ∈ considered) →
        registerAll .empty loaders = .ok host → HasOneHookEach value considered loaders host) ↔
      ∀ left ∈ considered, ∀ right ∈ considered,
        left.id = right.id ↔ left.value = right.value) ∧
    ∀ left right : ProxyLoader,
      left.id = right.id ↔ left = right ∨ ColonMoved left right ∨ ColonMoved right left := by
  refine ⟨fun loaders => ?_, ⟨fun oneEach left isLeft right isRight => ?_, ?_⟩, id_eq_iff⟩
  · obtain ⟨host, kept, registers, hasHooks⟩ := hasHooks_empty.registerAll loaders
    exact ⟨host, registers, hasHooks.hasOneHookEach⟩
  · obtain ⟨host, kept, registers, hasHooks⟩ := hasHooks_empty.registerAll [right]
    have byValue := oneEach [right] host (List.forall_mem_singleton.mpr isRight) registers
    have byId : left.isRegistered host = true ↔ left.id ∈ [right].map ProxyLoader.id :=
      hasHooks.isRegistered_iff
    rw [byValue.state left isLeft] at byId
    simpa using byId.symm
  · intro agree loaders host inside registers
    obtain ⟨next, kept, registersNext, hasHooks⟩ := hasHooks_empty.registerAll loaders
    obtain rfl := Except.ok.inj (registers.symm.trans registersNext)
    exact hasHooks.hasOneHookEach_value inside agree

/-- Two spellings of one directory get two hooks, and two loaders between which a colon has
moved get one. -/
theorem equal_loaders_doubled_and_others_merged :
    (∃ host, registerAll .empty [⟨⟨"p"⟩, "G"⟩, ⟨⟨"p/"⟩, "G"⟩] = .ok host ∧
      host.resolvers.length = 2 ∧
      (ProxyLoader.mk ⟨"p"⟩ "G").value = (ProxyLoader.mk ⟨"p/"⟩ "G").value) ∧
    ∃ host, registerAll .empty [⟨⟨"a:b"⟩, "c"⟩, ⟨⟨"a"⟩, "b:c"⟩] = .ok host ∧
      host.resolvers.length = 1 ∧
      (ProxyLoader.mk ⟨"a:b"⟩ "c").value ≠ (ProxyLoader.mk ⟨"a"⟩ "b:c").value := by
  constructor
  · obtain ⟨host, _, registers, hasHooks⟩ :=
      hasHooks_empty.registerAll [⟨⟨"p"⟩, "G"⟩, ⟨⟨"p/"⟩, "G"⟩]
    refine ⟨host, registers, ?_, by decide +kernel⟩
    rw [hasHooks.hasOneHookEach.count]
    decide +kernel
  · obtain ⟨host, _, registers, hasHooks⟩ :=
      hasHooks_empty.registerAll [⟨⟨"a:b"⟩, "c"⟩, ⟨⟨"a"⟩, "b:c"⟩]
    refine ⟨host, registers, ?_, by decide +kernel⟩
    rw [hasHooks.hasOneHookEach.count]
    decide +kernel

end FactoryProxy.ProxyLoader
