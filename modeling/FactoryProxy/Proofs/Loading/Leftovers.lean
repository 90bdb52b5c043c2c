import FactoryProxy.Proofs.FileSystem.Growing
import FactoryProxy.Proofs.FileSystem.Making
import FactoryProxy.Proofs.Generation.Repeating
import FactoryProxy.Proofs.Loading.GeneratedTypes
import FactoryProxy.Proofs.Loading.ProxyDirectory

/-!
Contract: what a later run leaves of the interfaces of an earlier one.

A run removes no file. So an interface that was generated once is resolved after a later
run whether or not that run has generated it again, as long as its file is there. Only the
container of the later run tells which interfaces are generated now.

Owns: the interfaces of a container, and their files after a later run.
-/

namespace FactoryProxy

open FileSystem (WritesAll)

/-! ## Interfaces of containers -/

namespace Container

/-- Some definition of the container implements the interface. -/
def Implements (container : Container) (interfaceName : String) : Prop :=
  ∃ named ∈ container.definitions, named.2.implement = interfaceName

instance (container : Container) (interfaceName : String) :
    Decidable (container.Implements interfaceName) :=
  inferInstanceAs (Decidable (∃ named ∈ container.definitions, _))

theorem implements_numberedFrom {slot : Nat} {factories : List (String × String)}
    {interfaceName : String} :
    (∃ named ∈ numberedFrom slot factories, named.2.implement = interfaceName) ↔
      ∃ className, (interfaceName, className) ∈ factories := by
  induction factories generalizing slot with
  | nil => simp [numberedFrom]
  | cons head tail inductionHypothesis =>
      obtain ⟨headInterface, headClass⟩ := head
      rw [numberedFrom, List.exists_mem_cons_iff, inductionHypothesis]
      constructor
      · rintro (rfl | ⟨className, inTail⟩)
        · exact ⟨headClass, List.mem_cons_self⟩
        · exact ⟨className, List.mem_cons_of_mem _ inTail⟩
      · rintro ⟨className, member⟩
        rcases List.mem_cons.mp member with isHead | inTail
        · exact .inl (Prod.mk.inj isHead).1.symm
        · exact .inr ⟨className, inTail⟩

end Container

/-! ## Resolving generated interfaces -/

/-- A plain name of the namespace is resolved exactly where its file is one. -/
theorem ProxyLoader.isSome_resolve_qualifiedName (loader : ProxyLoader) (files : FileSystem)
    {name : String} (plain : Artifact.IsPlain name) :
    (loader.resolve files (Artifact.qualifiedName loader.namespaceName name)).isSome = true ↔
      files.isFile (Artifact.pathIn loader.directory name) = true := by
  unfold ProxyLoader.resolve
  rw [Artifact.baseName?_qualifiedName loader.namespaceName plain, Option.map_some,
    Option.filter_some]
  split
  · rename_i isFile
    rw [isFile]
    simp
  · rename_i notFile
    simp [notFile]

/-! ## Interfaces of a run -/

namespace Artifact

variable {namespaceName : String} {left right : Artifact}

/-- Plain names have different types in a namespace. -/
theorem qualifiedName_injective {leftName rightName : String} (leftPlain : IsPlain leftName)
    (rightPlain : IsPlain rightName)
    (same : qualifiedName namespaceName leftName = qualifiedName namespaceName rightName) :
    leftName = rightName := by
  have sameBase := congrArg (baseName? namespaceName) same
  rw [baseName?_qualifiedName namespaceName leftPlain,
    baseName?_qualifiedName namespaceName rightPlain] at sameBase
  exact Option.some.inj sameBase

/-- An artifact with the type of a factory is that of a factory, under the same name. -/
theorem Generated.factory_of_qualified (isLeft : Generated namespaceName left)
    (isRight : Generated namespaceName right) (isFactory : left.className.isSome = true)
    (same : right.qualified = left.qualified) :
    right.className.isSome = true ∧ right.name = left.name := by
  rw [isRight.qualified_eq, isLeft.qualified_eq] at same
  have sameName := qualifiedName_injective isRight.isPlain isLeft.isPlain same
  refine ⟨?_, sameName⟩
  cases isRight with
  | factory className => rfl
  | marker =>
      cases isLeft with
      | marker => exact isFactory
      | factory className =>
          exact absurd (congrArg Text.fold sameName).symm (fold_factoryName_ne_marker className)

end Artifact

namespace Generation

variable {settings laterSettings : ResolvedSettings} {files middle edited opened after : FileSystem}
  {container laterContainer : Container} {report laterReport : Report} {written : Written}
  {artifact : Artifact} {artifacts : List Artifact} {interfaceName : String}

theorem mem_factoriesAmong_iff {className : String} :
    (interfaceName, className) ∈ factoriesAmong artifacts ↔
      ∃ artifact ∈ artifacts, artifact.className = some className ∧
        artifact.qualified = interfaceName := by
  unfold factoriesAmong
  rw [List.mem_filterMap]
  refine exists_congr (fun artifact => and_congr_right (fun _ => ?_))
  rw [Option.map_eq_some_iff]
  constructor
  · rintro ⟨other, isClass, same⟩
    obtain ⟨isInterface, rfl⟩ := Prod.mk.inj same
    exact ⟨isClass, isInterface⟩
  · rintro ⟨isClass, isInterface⟩
    refine ⟨className, isClass, ?_⟩
    rw [isInterface]

/-- The container of a run implements the types of its factories. -/
theorem Writes.implements_iff (writes : Writes settings files after written opened artifacts) :
    (describedBy settings written).Implements interfaceName ↔
      ∃ artifact ∈ artifacts, artifact.className.isSome = true ∧
        artifact.qualified = interfaceName := by
  have isNumbered : (describedBy settings written).definitions =
      Container.numberedFrom 0 (factoriesAmong artifacts) := by
    unfold describedBy
    rw [Artifact.persisted_eq writes.persists, factoriesOf_recordIn]
  unfold Container.Implements
  rw [isNumbered, Container.implements_numberedFrom]
  constructor
  · rintro ⟨className, member⟩
    obtain ⟨artifact, isArtifact, isClass, isInterface⟩ := mem_factoriesAmong_iff.mp member
    exact ⟨artifact, isArtifact, Option.isSome_of_eq_some isClass, isInterface⟩
  · rintro ⟨artifact, isArtifact, isFactory, isInterface⟩
    obtain ⟨className, isClass⟩ := Option.isSome_iff_exists.mp isFactory
    exact ⟨className, mem_factoriesAmong_iff.mpr ⟨artifact, isArtifact, isClass, isInterface⟩⟩

theorem Writes.generated (writes : Writes settings files after written opened artifacts)
    (member : artifact ∈ artifacts) : Artifact.Generated settings.proxyNamespace artifact := by
  obtain ⟨_, targets, _, rfl⟩ := plan_eq_ok writes.plans
  exact Artifact.generated_of_mem_all member

theorem Writes.sameFile_written (writes : Writes settings files after written opened artifacts)
    (member : artifact ∈ artifacts) :
    after.SameFile (Artifact.pathIn settings.proxyDirectory artifact.name)
      (Artifact.pathIn settings.proxyDirectory artifact.name) := by
  obtain ⟨key, content, found⟩ := writes.areThere_behind artifact member
  exact ⟨key, content, found, found⟩

/-- A path leads to a file after a run exactly if it did when the proxy directory had been
opened, or if it leads to the file of an artifact. -/
theorem Writes.isFile_iff (writes : Writes settings files after written opened artifacts)
    (path : Path) :
    after.isFile path = true ↔ opened.isFile path = true ∨
      ∃ artifact ∈ artifacts,
        after.SameFile (Artifact.pathIn settings.proxyDirectory artifact.name) path := by
  rw [(Artifact.persistAll_eq_ok_iff.mp writes.persists).1.isFile_iff]
  unfold Artifact.writesIn
  simp only [List.mem_map, exists_exists_and_eq_and]

/-- The file of a factory is there after a run exactly if the container implements its
interface, or it was there before the run wrote, or the file of another artifact is the
same one. -/
theorem Writes.isFile_factory_iff
    (writes : Writes settings files after written opened artifacts)
    (generated : Artifact.Generated settings.proxyNamespace artifact)
    (isFactory : artifact.className.isSome = true) :
    after.isFile (Artifact.pathIn settings.proxyDirectory artifact.name) = true ↔
      (describedBy settings written).Implements artifact.qualified ∨
      opened.isFile (Artifact.pathIn settings.proxyDirectory artifact.name) = true ∨
      ∃ other ∈ artifacts, other.qualified ≠ artifact.qualified ∧
        after.SameFile (Artifact.pathIn settings.proxyDirectory other.name)
          (Artifact.pathIn settings.proxyDirectory artifact.name) := by
  rw [writes.isFile_iff, writes.implements_iff]
  constructor
  · rintro (wasFile | ⟨other, isOther, together⟩)
    · exact .inr (.inl wasFile)
    · -- An artifact with this interface is the factory itself, generated again.
      by_cases same : other.qualified = artifact.qualified
      · obtain ⟨isOtherFactory, _⟩ :=
          generated.factory_of_qualified (writes.generated isOther) isFactory same
        exact .inl ⟨other, isOther, isOtherFactory, same⟩
      · exact .inr (.inr ⟨other, isOther, same, together⟩)
  · rintro (⟨other, isOther, _, same⟩ | wasFile | ⟨other, isOther, _, together⟩)
    · obtain ⟨_, sameName⟩ :=
        generated.factory_of_qualified (writes.generated isOther) isFactory same
      have together := writes.sameFile_written isOther
      rw [sameName] at together
      refine .inr ⟨other, isOther, ?_⟩
      rw [sameName]
      exact together
    · exact .inl wasFile
    · exact .inr ⟨other, isOther, together⟩

/-- An interface that a run has generated is resolved after a later run into the directory
exactly if the later container implements it, too, or its file was still there before the
later run wrote, or its path leads to the file of another artifact. A file that was left
where it is stays. -/
theorem interface_resolved_after_later_run
    (first : generate settings ∅ files = ((container, .ok report), middle))
    (second : generate laterSettings ∅ edited = ((laterContainer, .ok laterReport), after))
    (sameDirectory : laterSettings.proxyDirectory = settings.proxyDirectory)
    (sameNamespace : laterSettings.proxyNamespace = settings.proxyNamespace)
    (implemented : container.Implements interfaceName) :
    ∃ path,
      (ProxyLoader.mk settings.proxyDirectory settings.proxyNamespace).resolve middle
          interfaceName = some path ∧
      (((ProxyLoader.mk settings.proxyDirectory settings.proxyNamespace).resolve after
          interfaceName).isSome = true ↔
        laterContainer.Implements interfaceName ∨
        (Artifact.openDirectory settings.proxyDirectory edited).2.isFile path = true ∨
        ∃ artifact ∈ plannedArtifacts laterSettings edited,
          artifact.qualified ≠ interfaceName ∧
          after.SameFile (Artifact.pathIn settings.proxyDirectory artifact.name) path) ∧
      (edited.isFile path = true →
        (Artifact.openDirectory settings.proxyDirectory edited).2.isFile path = true) := by
  obtain ⟨written, opened, artifacts, writes, rfl⟩ := generate_empty_eq_ok first
  obtain ⟨laterWritten, laterOpened, laterArtifacts, laterWrites, rfl⟩ :=
    generate_empty_eq_ok second
  obtain ⟨artifact, member, isFactory, rfl⟩ := writes.implements_iff.mp implemented
  have generated := writes.generated member
  have isOpened : (Artifact.openDirectory settings.proxyDirectory edited).2 = laterOpened := by
    rw [← sameDirectory, laterWrites.opens]
  refine ⟨Artifact.pathIn settings.proxyDirectory artifact.name, ?_, ?_, ?_⟩
  · apply ProxyLoader.resolve_eq_some_iff.mpr
    refine ⟨artifact.name, ?_, rfl, FileSystem.isFile_of_sameFile (writes.sameFile_written member)⟩
    rw [generated.qualified_eq]
    exact Artifact.baseName?_qualifiedName settings.proxyNamespace generated.isPlain
  · have resolves := ProxyLoader.isSome_resolve_qualifiedName
      ⟨settings.proxyDirectory, settings.proxyNamespace⟩ after generated.isPlain
    have laterGenerated := generated
    rw [← sameNamespace] at laterGenerated
    have isThere := laterWrites.isFile_factory_iff laterGenerated isFactory
    rw [sameDirectory] at isThere
    rw [← generated.qualified_eq] at resolves
    rw [resolves, isThere, isOpened, (planned_eq laterWrites.opens laterWrites.plans).1]
  · exact (Artifact.made_openDirectory settings.proxyDirectory edited).isFile

/-! ## A removed class -/

def interfaceOfA : String := "G\\A___GeneratedFactoryInterface"

/-- The two classes and what was generated for them, without the file of the first class. -/
def withoutA : FileSystem :=
  (FileSystem.remove ⟨"src/a.php"⟩ (generate scanForT ∅ twoClasses).2).2

/-- What the run behind the removal reports. -/
def reportWithoutA : Report where
  factories := [
    ⟨"B___GeneratedFactoryInterface", "G\\B___GeneratedFactoryInterface", some "B",
      ⟨"p/B___GeneratedFactoryInterface.php"⟩⟩]
  definitions := 1
  indexedClasses := 1
  scannedFiles := 1

set_option maxRecDepth 100000 in
theorem checks_twoClasses :
    (generate scanForT ∅ twoClasses).1.1.Implements interfaceOfA ∧
      (ProxyLoader.mk ⟨"p"⟩ "G").resolve (generate scanForT ∅ twoClasses).2 interfaceOfA =
        some ⟨"p/A___GeneratedFactoryInterface.php"⟩ ∧
      Path.mk "src/a.php" ∈ plannedSources scanForT twoClasses ∧
      (FileSystem.remove ⟨"src/a.php"⟩ (generate scanForT ∅ twoClasses).2).1 = .ok () := by
  decide +kernel

set_option maxRecDepth 100000 in
theorem checks_withoutA :
    withoutA.isFile ⟨"p/A___GeneratedFactoryInterface.php"⟩ = true ∧
      (generate scanForT ∅ withoutA).1.2 = .ok reportWithoutA ∧
      ¬ (generate scanForT ∅ withoutA).1.1.Implements interfaceOfA ∧
      ((ProxyLoader.mk ⟨"p"⟩ "G").resolve (generate scanForT ∅ withoutA).2
        interfaceOfA).isSome = true := by
  decide +kernel

/-- The interface of the removed class is resolved after the second run, too. -/
theorem interface_outlives_its_class :
    ∃ path,
      (ProxyLoader.mk ⟨"p"⟩ "G").resolve (generate scanForT ∅ twoClasses).2 interfaceOfA =
          some path ∧
        ((ProxyLoader.mk ⟨"p"⟩ "G").resolve (generate scanForT ∅ withoutA).2
          interfaceOfA).isSome = true ∧
        ¬ (generate scanForT ∅ withoutA).1.1.Implements interfaceOfA := by
  obtain ⟨implemented, wasResolved, _, _⟩ := checks_twoClasses
  obtain ⟨remains, completed, dropped, _⟩ := checks_withoutA
  obtain ⟨path, resolved, afterwards, stays⟩ := interface_resolved_after_later_run
    (generate_of_report run_on_two_classes) (generate_of_report completed) rfl rfl implemented
  obtain rfl := Option.some.inj (wasResolved.symm.trans resolved)
  exact ⟨_, resolved, afterwards.mpr (.inr (.inl (stays remains))), dropped⟩

/-- A run does not take back what an earlier one has generated for a class that is gone. -/
theorem later_run_keeps_dead_interface :
    ¬ ∀ (settings : ResolvedSettings) (files middle edited after : FileSystem) (source : Path)
        (container laterContainer : Container) (report laterReport : Report)
        (interfaceName : String),
      generate settings ∅ files = ((container, .ok report), middle) →
        source ∈ plannedSources settings files →
        FileSystem.remove source middle = (.ok (), edited) →
        generate settings ∅ edited = ((laterContainer, .ok laterReport), after) →
          container.Implements interfaceName →
            ((ProxyLoader.mk settings.proxyDirectory settings.proxyNamespace).resolve after
                interfaceName).isSome = true →
              laterContainer.Implements interfaceName := by
  intro onlyLiving
  obtain ⟨implemented, _, isSource, isRemoved⟩ := checks_twoClasses
  obtain ⟨_, completed, dropped, resolved⟩ := checks_withoutA
  have removed : FileSystem.remove ⟨"src/a.php"⟩ (generate scanForT ∅ twoClasses).2 =
      (.ok (), withoutA) :=
    Prod.ext isRemoved rfl
  exact dropped (onlyLiving _ _ _ _ _ _ _ _ _ _ _ (generate_of_report run_on_two_classes)
    isSource removed (generate_of_report completed) implemented resolved)

end Generation

end FactoryProxy
