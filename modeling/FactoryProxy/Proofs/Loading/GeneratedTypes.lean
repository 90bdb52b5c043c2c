import FactoryProxy.Loading.ProxyLoader
import FactoryProxy.Proofs.Artifact.Naming
import FactoryProxy.Proofs.Artifact.Persisting
import FactoryProxy.Proofs.Container.Manifest
import FactoryProxy.Proofs.Generation.Steps

/-!
Contract: generated interfaces are loaded from the files they were written to.

A run writes its artifacts, and the container that is read back from its manifest
starts a host. The host keeps the types it has loaded; whatever types were requested
before, a request for the type of an artifact gives its file and its source.

Two artifacts whose paths lead to one file share its content. So the types are loaded
as generated where no two paths do, and a link in the proxy directory may break that.

Owns: the types of artifacts, what a host serves, and the types loaded after a run.
-/

namespace FactoryProxy

/-! ## Generated artifacts -/

namespace Artifact

/-- The marker or a factory of a namespace. -/
inductive Generated (namespaceName : String) : Artifact → Prop where
  | marker : Generated namespaceName (marker namespaceName)
  | factory (className : String) (parameters : List Parameter)
      (dependencies : OrderedSet Path) :
      Generated namespaceName (factory className parameters namespaceName dependencies)

theorem generated_of_mem_all {index : ClassIndex} {targets : TargetTypes}
    {namespaceName : String} {artifact : Artifact}
    (member : artifact ∈ all index targets namespaceName) : Generated namespaceName artifact := by
  rcases List.mem_cons.mp member with isMarker | inFactories
  · rw [isMarker]
    exact .marker
  · obtain ⟨declared, _, rfl⟩ := List.mem_map.mp inFactories
    exact .factory declared.name _ _

theorem Generated.isPlain {namespaceName : String} {artifact : Artifact}
    (generated : Generated namespaceName artifact) : IsPlain artifact.name := by
  cases generated with
  | marker => exact isPlain_markerName
  | factory className => exact isPlain_factoryName className

theorem Generated.qualified_eq {namespaceName : String} {artifact : Artifact}
    (generated : Generated namespaceName artifact) :
    artifact.qualified = qualifiedName namespaceName artifact.name := by
  cases generated with
  | marker => rfl
  | factory => rfl

/-- The type of an artifact as it is loaded from a directory. -/
def typeIn (directory : Path) (artifact : Artifact) : LoadedType :=
  ⟨artifact.qualified, pathIn directory artifact.name, artifact.source⟩

/-- No two artifacts have types that differ in case only. -/
def TypesApart (artifacts : List Artifact) : Prop :=
  artifacts.Pairwise (fun left right =>
    ¬ Autoloader.typeKey left.qualified = Autoloader.typeKey right.qualified)

/-- No two classes have names that are equal without separators, ignoring case. -/
def ClassesApart (artifacts : List Artifact) : Prop :=
  (artifacts.filterMap Artifact.className).Pairwise (fun left right =>
    Text.fold (Name.stripSeparators left) ≠ Text.fold (Name.stripSeparators right))

/-- No two artifacts are written to one file. -/
def FilesApart (files : FileSystem) (directory : Path) (artifacts : List Artifact) : Prop :=
  artifacts.Pairwise (fun left right =>
    ¬ files.SameFile (pathIn directory left.name) (pathIn directory right.name))

instance (artifacts : List Artifact) : Decidable (ClassesApart artifacts) :=
  inferInstanceAs (Decidable (List.Pairwise _ _))

instance (files : FileSystem) (directory : Path) (artifacts : List Artifact) :
    Decidable (FilesApart files directory artifacts) :=
  inferInstanceAs (Decidable (List.Pairwise _ _))

/-- Factories of classes apart have types apart, from each other and from the marker. -/
theorem typesApart_all {index : ClassIndex} {targets : TargetTypes} {namespaceName : String}
    (apart : ClassesApart (all index targets namespaceName)) :
    TypesApart (all index targets namespaceName) := by
  have namesOfTypes : ∀ left ∈ all index targets namespaceName,
      ∀ right ∈ all index targets namespaceName,
        Autoloader.typeKey left.qualified = Autoloader.typeKey right.qualified →
          Text.fold left.name = Text.fold right.name := by
    intro left leftMember right rightMember same
    have leftGenerated := generated_of_mem_all leftMember
    have rightGenerated := generated_of_mem_all rightMember
    rw [leftGenerated.qualified_eq, rightGenerated.qualified_eq] at same
    exact typeKey_qualifiedName leftGenerated.isPlain rightGenerated.isPlain same
  apply List.pairwise_cons.mpr
  constructor
  · intro artifact member same
    have sameName := namesOfTypes _ List.mem_cons_self _ (List.mem_cons_of_mem _ member) same
    obtain ⟨declared, _, rfl⟩ := List.mem_map.mp member
    exact fold_factoryName_ne_marker declared.name sameName.symm
  · have factoriesApart : ((targets.select index).map ClassDeclaration.name).Pairwise
        (fun left right =>
          Text.fold (Name.stripSeparators left) ≠ Text.fold (Name.stripSeparators right)) := by
      have classNames : (all index targets namespaceName).filterMap Artifact.className =
          (targets.select index).map ClassDeclaration.name := by
        show ((targets.select index).map (ofClass index namespaceName)).filterMap
          Artifact.className = _
        rw [List.filterMap_map]
        show (targets.select index).filterMap (some ∘ ClassDeclaration.name) = _
        rw [List.filterMap_eq_map]
      unfold ClassesApart at apart
      rw [classNames] at apart
      exact apart
    rw [List.pairwise_map] at factoriesApart ⊢
    refine factoriesApart.imp_of_mem ?_
    intro left right leftMember rightMember different same
    have sameName := namesOfTypes _
      (List.mem_cons_of_mem _ (List.mem_map_of_mem leftMember)) _
      (List.mem_cons_of_mem _ (List.mem_map_of_mem rightMember)) same
    exact different (fold_factoryName sameName)

end Artifact

/-! ## Requests to a host -/

theorem ProxyLoader.resolve_resolver (loader : ProxyLoader) :
    loader.resolver.resolve = loader.resolve := by
  simp only [ProxyLoader.resolver]

/-- The type of a written artifact is found in its file. -/
theorem ProxyLoader.resolve_of_generated {loader : ProxyLoader} {files : FileSystem}
    {artifact : Artifact} (generated : Artifact.Generated loader.namespaceName artifact)
    (isRead : files.readText (Artifact.pathIn loader.directory artifact.name) =
      .ok artifact.source) :
    loader.resolve files artifact.qualified =
      some (Artifact.pathIn loader.directory artifact.name) := by
  have isFile : files.isFile (Artifact.pathIn loader.directory artifact.name) = true :=
    FileSystem.isFile_of_readText isRead
  unfold ProxyLoader.resolve
  rw [generated.qualified_eq,
    Artifact.baseName?_qualifiedName loader.namespaceName generated.isPlain,
    Option.map_some, Option.filter_some, if_pos isFile]

namespace Autoloader

/-- Loads types in order up to the first failure. -/
def loadAll (host : Autoloader) (files : FileSystem) :
    List String → Except Failure (Autoloader × List (Option LoadedType))
  | [] => .ok (host, [])
  | name :: rest => do
    let (loaded, type) ← host.load files name
    let (last, types) ← loaded.loadAll files rest
    return (last, type :: types)

/-- The host asks one loader, and what it has loaded are types of artifacts. -/
structure Serves (host : Autoloader) (loader : ProxyLoader) (artifacts : List Artifact) : Prop where
  asksLoader : host.resolvers = [loader.resolver]
  holdsTypes : ∀ entry ∈ host.defined, ∃ artifact ∈ artifacts,
    entry = (typeKey artifact.qualified, artifact.typeIn loader.directory)

variable {host : Autoloader} {loader : ProxyLoader} {files : FileSystem}
  {artifacts : List Artifact}

/-- A request for the type of an artifact gives its file and its source, and leaves a
host that serves the same artifacts. -/
theorem load_of_serves (serves : host.Serves loader artifacts)
    (generated : ∀ artifact ∈ artifacts, Artifact.Generated loader.namespaceName artifact)
    (apart : Artifact.TypesApart artifacts)
    (readable : ∀ artifact ∈ artifacts,
      files.readText (Artifact.pathIn loader.directory artifact.name) = .ok artifact.source)
    {artifact : Artifact} (member : artifact ∈ artifacts) :
    ∃ next, host.load files artifact.qualified =
        .ok (next, some (artifact.typeIn loader.directory)) ∧
      next.Serves loader artifacts := by
  unfold load
  cases isLoaded : host.loaded? artifact.qualified with
  | some loaded =>
      have inDefined : (typeKey artifact.qualified, loaded) ∈ host.defined := by
        obtain ⟨before, behind, isWhole, _⟩ := List.lookup_eq_some_iff.mp isLoaded
        rw [isWhole]
        exact List.mem_append_right before List.mem_cons_self
      obtain ⟨other, isOther, sameEntry⟩ := serves.holdsTypes _ inDefined
      obtain ⟨sameKey, sameType⟩ := Prod.mk.inj sameEntry
      -- What is loaded under the key can only be the type of this artifact.
      have same : artifact = other :=
        Artifact.eq_of_apart (fun left right =>
          typeKey left.qualified = typeKey right.qualified) (fun _ _ => Eq.symm) apart member
          isOther sameKey
      refine ⟨host, ?_, serves⟩
      rw [sameType, ← same]
  | none =>
      have isGenerated := generated artifact member
      have isRead := readable artifact member
      have resolved := ProxyLoader.resolve_of_generated isGenerated isRead
      have named : Name.trimLeading artifact.qualified = artifact.qualified := by
        rw [isGenerated.qualified_eq]
        exact Artifact.trimLeading_qualifiedName isGenerated.isPlain
      have asked : host.resolvers.findSome? (fun resolver => resolver.resolve files
          artifact.qualified) = some (Artifact.pathIn loader.directory artifact.name) := by
        rw [serves.asksLoader, List.findSome?_singleton, ProxyLoader.resolve_resolver]
        exact resolved
      refine ⟨{ host with defined :=
        (typeKey artifact.qualified, artifact.typeIn loader.directory) :: host.defined }, ?_, ?_⟩
      · simp only [asked, isRead, named]
        rfl
      · refine ⟨serves.asksLoader, ?_⟩
        intro entry inDefined
        rcases List.mem_cons.mp inDefined with isNew | isOld
        · exact ⟨artifact, member, isNew⟩
        · exact serves.holdsTypes entry isOld

/-- Requests for types of artifacts give their files and sources in every order. -/
theorem loadAll_of_serves (serves : host.Serves loader artifacts)
    (generated : ∀ artifact ∈ artifacts, Artifact.Generated loader.namespaceName artifact)
    (apart : Artifact.TypesApart artifacts)
    (readable : ∀ artifact ∈ artifacts,
      files.readText (Artifact.pathIn loader.directory artifact.name) = .ok artifact.source)
    {requests : List Artifact} (members : ∀ artifact ∈ requests, artifact ∈ artifacts) :
    ∃ last, host.loadAll files (requests.map Artifact.qualified) =
      .ok (last, requests.map (fun artifact => some (artifact.typeIn loader.directory))) := by
  induction requests generalizing host with
  | nil => exact ⟨host, rfl⟩
  | cons head tail inductionHypothesis =>
      obtain ⟨next, loads, nextServes⟩ :=
        load_of_serves serves generated apart readable (members head List.mem_cons_self)
      obtain ⟨last, loadsTail⟩ := inductionHypothesis nextServes
        (fun artifact member => members artifact (List.mem_cons_of_mem head member))
      refine ⟨last, ?_⟩
      rw [List.map_cons, loadAll, loads]
      show (next.loadAll files (tail.map Artifact.qualified) >>= fun read =>
        .ok (read.1, _ :: read.2)) = _
      rw [loadsTail]
      rfl

end Autoloader

/-! ## A run and the types it makes -/

namespace Generation

variable {settings : ResolvedSettings} {files after : FileSystem} {container : Container}
  {report : Report}

/-- The types and classes of the factories among artifacts. -/
def factoriesAmong (artifacts : List Artifact) : List (String × String) :=
  artifacts.filterMap (fun artifact =>
    artifact.className.map (fun className => (artifact.qualified, className)))

theorem factoriesOf_recordIn (directory : Path) (artifacts : List Artifact) :
    Container.factoriesOf (artifacts.map (Artifact.recordIn directory)) =
      factoriesAmong artifacts := by
  unfold Container.factoriesOf factoriesAmong
  rw [List.filterMap_map]
  simp only [Function.comp_def, Artifact.recordIn]

/-- A host that is started from the manifest of a completed run gives, for the type of
every artifact and in every order of requests, the file and the source of that artifact.
The artifacts are the marker and one for each definition. -/
theorem generated_types_load
    (ran : generate settings ∅ files = ((container, .ok report), after)) :
    ∃ opened index artifacts,
      Artifact.openDirectory settings.proxyDirectory files = (.ok (), opened) ∧
      plan opened settings = .ok (index, artifacts) ∧
      Artifact.marker settings.proxyNamespace ∈ artifacts ∧
      (Artifact.ClassesApart artifacts →
        Artifact.FilesApart after settings.proxyDirectory artifacts →
          ∃ restored host, Container.ofManifest container.manifest = .ok restored ∧
            restored.start .empty = (host, .ok ()) ∧
            restored.definitions = Container.numberedFrom 0 (factoriesAmong artifacts) ∧
            ∀ requests : List Artifact, (∀ artifact ∈ requests, artifact ∈ artifacts) →
              ∃ last, host.loadAll after (requests.map Artifact.qualified) =
                .ok (last, requests.map (fun artifact =>
                  some (artifact.typeIn settings.proxyDirectory)))) := by
  obtain ⟨written, opened, artifacts, writes, isDescribed⟩ := generate_empty_eq_ok ran
  obtain ⟨built, targets, resolved, isAll⟩ := plan_eq_ok writes.plans
  have isPersisted := Artifact.persisted_eq writes.persists
  refine ⟨opened, written.index, artifacts, writes.opens, writes.plans, ?_, ?_⟩
  · rw [isAll]
    exact List.mem_cons_self
  · intro classesApart filesApart
    let loader : ProxyLoader := ⟨settings.proxyDirectory, settings.proxyNamespace⟩
    let host : Autoloader := ⟨true, [loader.resolver], []⟩
    have serves : host.Serves loader artifacts := by
      refine ⟨rfl, ?_⟩
      intro entry inDefined
      cases inDefined
    have generated : ∀ artifact ∈ artifacts,
        Artifact.Generated loader.namespaceName artifact := by
      intro artifact member
      rw [isAll] at member
      exact Artifact.generated_of_mem_all member
    have typesApart : Artifact.TypesApart artifacts := by
      rw [isAll] at classesApart ⊢
      exact Artifact.typesApart_all classesApart
    have readable : ∀ artifact ∈ artifacts,
        after.readText (Artifact.pathIn loader.directory artifact.name) = .ok artifact.source :=
      fun artifact member => Artifact.readText_artifact writes.persists filesApart member
    refine ⟨container, host, container.ofManifest_manifest, ?_, ?_, ?_⟩
    · rw [isDescribed]
      rfl
    · rw [isDescribed]
      unfold describedBy
      rw [isPersisted, factoriesOf_recordIn]
    · intro requests members
      exact Autoloader.loadAll_of_serves serves generated typesApart readable members

set_option maxRecDepth 100000 in
/-- Two factories and the marker, the second factory requested first. -/
theorem two_generated_types_load :
    ∃ restored host last,
      Container.ofManifest (generate scanForT ∅ twoClasses).1.1.manifest = .ok restored ∧
      restored.start .empty = (host, .ok ()) ∧
      host.loadAll (generate scanForT ∅ twoClasses).2
          ((plannedArtifacts scanForT twoClasses).reverse.map Artifact.qualified) =
        .ok (last, (plannedArtifacts scanForT twoClasses).reverse.map (fun artifact =>
          some (artifact.typeIn ⟨"p"⟩))) := by
  have ran : generate scanForT ∅ twoClasses =
      (((generate scanForT ∅ twoClasses).1.1, .ok _), (generate scanForT ∅ twoClasses).2) :=
    Prod.ext (Prod.ext rfl run_on_two_classes) rfl
  obtain ⟨opened, index, artifacts, opens, plans, _, loads⟩ := generated_types_load ran
  rw [(planned_eq opens plans).1] at loads
  have classesApart : Artifact.ClassesApart (plannedArtifacts scanForT twoClasses) := by
    decide +kernel
  have filesApart : Artifact.FilesApart (generate scanForT ∅ twoClasses).2
      scanForT.proxyDirectory (plannedArtifacts scanForT twoClasses) := by
    decide +kernel
  obtain ⟨restored, host, isRestored, starts, _, serves⟩ := loads classesApart filesApart
  obtain ⟨last, loaded⟩ := serves (plannedArtifacts scanForT twoClasses).reverse
    (fun artifact member => List.mem_reverse.mp member)
  exact ⟨restored, host, last, isRestored, starts, loaded⟩

/-- One class below the target `T`, and in the proxy directory a link from the file of the
marker to that of the factory. -/
def linkedMarker : FileSystem where
  entries := .ofList [
    (["src"], .directory),
    (["src", "a.php"], .file "<?php class A extends T{}".toUTF8),
    (["p"], .directory),
    (["p", "IGeneratedFactory.php"], .link "A___GeneratedFactoryInterface.php")]
  current := []

set_option maxRecDepth 100000 in
/-- Through a link the marker is loaded with the source of a factory. -/
theorem linked_marker_not_loaded :
    ¬ ∀ (settings : ResolvedSettings) (files after : FileSystem) (container : Container)
        (report : Report), generate settings ∅ files = ((container, .ok report), after) →
      Artifact.ClassesApart (plannedArtifacts settings files) →
        ∃ restored host, Container.ofManifest container.manifest = .ok restored ∧
          restored.start .empty = (host, .ok ()) ∧
          ∀ artifact ∈ plannedArtifacts settings files, ∃ next,
            host.load after artifact.qualified =
              .ok (next, some (artifact.typeIn settings.proxyDirectory)) := by
  intro always
  have completed : (generate scanForT ∅ linkedMarker).1.2 = .ok
      ⟨[⟨"A___GeneratedFactoryInterface", "G\\A___GeneratedFactoryInterface", some "A",
        ⟨"p/A___GeneratedFactoryInterface.php"⟩⟩], 1, 1, 1⟩ := by
    decide +kernel
  have classesApart : Artifact.ClassesApart (plannedArtifacts scanForT linkedMarker) := by
    decide +kernel
  obtain ⟨restored, host, isRestored, starts, loads⟩ :=
    always scanForT linkedMarker _ _ _ (Prod.ext (Prod.ext rfl completed) rfl) classesApart
  rw [Container.ofManifest_manifest] at isRestored
  obtain rfl := Except.ok.inj isRestored
  obtain ⟨next, loaded⟩ := loads (Artifact.marker "G") (by decide +kernel)
  have other : (((generate scanForT ∅ linkedMarker).1.1.start .empty).1.load
      (generate scanForT ∅ linkedMarker).2 (Artifact.marker "G").qualified).map Prod.snd ≠
        .ok (some ((Artifact.marker "G").typeIn scanForT.proxyDirectory)) := by
    decide +kernel
  rw [starts] at other
  exact other (Sequencing.map_eq_ok.mpr ⟨_, loaded, rfl⟩)

end Generation

end FactoryProxy
