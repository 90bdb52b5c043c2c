import FactoryProxy.Proofs.Command.Generating
import FactoryProxy.Proofs.Dependency.Expiry
import FactoryProxy.Proofs.Generation.Atomicity
import FactoryProxy.Proofs.OrderedMap.Spelling

/-!
Contract: what a container keeps through all of its changes.

No change, nor one that fails in between, brings in a name, a step or a generated file for
the second time, reorders or removes a definition, or replaces the digest of a recorded
file.

Owns: the changes of a container, what each of them keeps, and the containers built by them.
-/

namespace FactoryProxy

namespace DependencySet

variable {set : DependencySet} {path : Path}

/-! ## Recorded files -/

/-- No generated file is recorded twice, in whatever spelling. -/
def ArtifactsApart (set : DependencySet) : Prop :=
  set.artifacts.Pairwise (fun left right => left.same right = false)

theorem artifactsApart_addArtifact (apart : set.ArtifactsApart) (path : Path) :
    (set.addArtifact path).ArtifactsApart := by
  unfold addArtifact
  split
  · exact apart
  · rename_i isNew
    refine List.pairwise_append.mpr ⟨apart, List.pairwise_singleton _ _, ?_⟩
    intro recorded isRecorded added isAdded
    rw [List.mem_singleton.mp isAdded]
    exact Bool.eq_false_iff.mpr (fun same =>
      isNew (List.any_eq_true.mpr ⟨recorded, isRecorded, same⟩))

theorem artifactsApart_foldl (paths : List Path) (apart : set.ArtifactsApart) :
    (paths.foldl addArtifact set).ArtifactsApart := by
  induction paths generalizing set with
  | nil => exact apart
  | cons path paths inductionHypothesis =>
      exact inductionHypothesis (artifactsApart_addArtifact apart path)

theorem artifactsApart_extend (apart : set.ArtifactsApart) (other : DependencySet) :
    (set.extend other).ArtifactsApart :=
  artifactsApart_foldl other.artifacts apart

/-- A merged set has the recorded files of both, and those of the first one as they were. -/
theorem files_extend (set other : DependencySet) :
    (set.extend other).files = set.files.union other.files := by
  unfold extend
  obtain ⟨artifacts, merged, _⟩ := foldl_addArtifact other.artifacts
    { files := set.files.union other.files
      scanned := if other.scanned.isEmpty then set.scanned else other.scanned
      artifacts := set.artifacts
      fingerprint := if other.fingerprint.isEmpty then set.fingerprint else other.fingerprint }
  rw [merged]

end DependencySet

theorem Initializer.same_symm {left right : Initializer} (same : left.same right = true) :
    right.same left = true := by
  simp only [Initializer.same, Path.same, Bool.and_eq_true, beq_iff_eq] at same ⊢
  exact ⟨same.1.symm, same.2.symm⟩

namespace Container

variable {container earlier middle later : Container} {name : String} {definition : Definition}

/-! ## Names of definitions -/

def names (container : Container) : List String :=
  container.definitions.map Prod.fst

theorem hasDefinition_iff : container.hasDefinition name = true ↔ name ∈ container.names := by
  unfold hasDefinition definition? names
  rw [List.lookup_isSome_iff, List.mem_map]
  constructor
  · rintro ⟨named, member, isName⟩
    exact ⟨named, member, (eq_of_beq isName).symm⟩
  · rintro ⟨named, member, rfl⟩
    exact ⟨named, member, beq_self_eq_true _⟩

/-- An addition fails exactly if the name is taken. -/
theorem addDefinition_eq_error_iff {failure : Failure} :
    container.addDefinition name definition = .error failure ↔
      name ∈ container.names ∧ failure = .configuration (.repeatedService name) := by
  unfold addDefinition
  rw [← hasDefinition_iff]
  by_cases taken : container.hasDefinition name = true
  · rw [if_pos taken]
    constructor
    · intro fails
      exact ⟨taken, (Except.error.inj fails).symm⟩
    · rintro ⟨_, rfl⟩
      rfl
  · rw [if_neg taken]
    constructor
    · intro fails
      cases fails
    · rintro ⟨isTaken, _⟩
      exact absurd isTaken taken

/-- An addition that succeeds appends the definition under a new name. -/
theorem addDefinition_eq_ok (added : container.addDefinition name definition = .ok later) :
    name ∉ container.names ∧
      later = { container with definitions := container.definitions ++ [(name, definition)] } := by
  unfold addDefinition at added
  split at added
  · cases added
  · rename_i isFree
    rw [hasDefinition_iff] at isFree
    exact ⟨isFree, (Except.ok.inj added).symm⟩

/-! ## What a change keeps -/

/-- No name, no step and no generated file is there twice. -/
structure Distinct (container : Container) : Prop where
  names : container.names.Nodup
  initializers : container.initializers.Pairwise (fun left right => left.same right = false)
  artifacts : container.dependencies.ArtifactsApart

/-- Definitions are appended and recorded files stay, with their digests. -/
structure Continues (earlier later : Container) : Prop where
  distinct : earlier.Distinct → later.Distinct
  definitions : earlier.definitions <+: later.definitions
  digests : ∀ path entry, earlier.dependencies.files.entry? path = some entry →
    later.dependencies.files.entry? path = some entry

theorem Continues.refl (container : Container) : Continues container container where
  distinct := id
  definitions := List.prefix_refl _
  digests := fun _ _ isRecorded => isRecorded

theorem Continues.trans (first : Continues earlier middle) (second : Continues middle later) :
    Continues earlier later where
  distinct := fun distinct => second.distinct (first.distinct distinct)
  definitions := first.definitions.trans second.definitions
  digests := fun path entry isRecorded =>
    second.digests path entry (first.digests path entry isRecorded)

theorem continues_replaceParameters (container : Container)
    (parameters : OrderedMap String String) :
    Continues container (container.replaceParameters parameters) where
  distinct := fun distinct => ⟨distinct.names, distinct.initializers, distinct.artifacts⟩
  definitions := List.prefix_refl _
  digests := fun _ _ isRecorded => isRecorded

theorem continues_addDefinition (added : container.addDefinition name definition = .ok later) :
    Continues container later := by
  obtain ⟨isFree, rfl⟩ := addDefinition_eq_ok added
  refine ⟨fun distinct => ⟨?_, distinct.initializers, distinct.artifacts⟩,
    List.prefix_append _ _, fun _ _ isRecorded => isRecorded⟩
  show ((container.definitions ++ [(name, definition)]).map Prod.fst).Nodup
  rw [List.map_append, List.nodup_append_comm]
  exact List.nodup_cons.mpr ⟨isFree, distinct.names⟩

theorem continues_addDependencies (container : Container) (set : DependencySet) :
    Continues container (container.addDependencies set) where
  distinct := fun distinct => ⟨distinct.names, distinct.initializers,
    DependencySet.artifactsApart_extend distinct.artifacts set⟩
  definitions := List.prefix_refl _
  digests := by
    intro path entry isRecorded
    show OrderedMap.entry? (container.dependencies.extend set).files path = some entry
    rw [DependencySet.files_extend, OrderedMap.entry?_union, isRecorded, Option.some_or]

theorem continues_prependInitializer (container : Container) (initializer : Initializer) :
    Continues container (container.prependInitializer initializer) := by
  unfold prependInitializer
  split
  · exact .refl container
  · rename_i isNew
    refine ⟨fun distinct => ⟨distinct.names, ?_, distinct.artifacts⟩, List.prefix_refl _,
      fun _ _ isRecorded => isRecorded⟩
    refine List.pairwise_cons.mpr ⟨?_, distinct.initializers⟩
    intro present isPresent
    apply Bool.eq_false_iff.mpr
    intro same
    apply isNew
    refine List.any_eq_true.mpr ⟨present, isPresent, ?_⟩
    exact Initializer.same_symm same

/-- An emission adds definitions one by one, and keeps those before a failure. -/
theorem continues_addFactories (container : Container) (slot : Nat)
    (factories : List (String × String)) :
    Continues container (container.addFactories slot factories).1 := by
  induction factories generalizing container slot with
  | nil => exact .refl container
  | cons head tail inductionHypothesis =>
      obtain ⟨interfaceName, className⟩ := head
      unfold addFactories
      cases added : container.addDefinition (definitionName slot)
          (factoryDefinition interfaceName className) with
      | ok next => exact (continues_addDefinition added).trans (inductionHypothesis next (slot + 1))
      | error failure => exact .refl container

/-- A run changes its container by an emission and, if that succeeds, by what it depends on
and the step that loads its interfaces. -/
theorem continues_generate (settings : ResolvedSettings) (container : Container)
    (files : FileSystem) :
    Continues container (Generation.generate settings container files).1.1 := by
  rcases wrote : Generation.writeArtifacts settings files with ⟨outcome, after⟩
  cases outcome with
  | error failure =>
      rw [Generation.generate_of_unwritten container wrote]
      exact .refl container
  | ok written =>
      rw [Generation.generate_of_written container wrote]
      have emits := continues_addFactories container 0 (factoriesOf written.persisted)
      unfold Generation.describe
      unfold emit
      rcases emitted : container.addFactories 0 (factoriesOf written.persisted) with
        ⟨left, result⟩
      rw [emitted] at emits
      cases result with
      | error failure => exact emits
      | ok definitions =>
          exact (emits.trans (continues_addDependencies left written.dependencies)).trans
            (continues_prependInitializer _ _)

/-! ## Changes -/

/-- A definition is added with its interface and tags. A run goes over files that are such
at that time. A container may also be written to a manifest and read back. -/
inductive Change where
  | replaceParameters (parameters : OrderedMap String String)
  | addDefinition (name : String) (definition : Definition)
  | addDependencies (set : DependencySet)
  | prependInitializer (initializer : Initializer)
  | emit (artifacts : List PersistedArtifact)
  | generate (settings : ResolvedSettings) (files : FileSystem)
  | reread

/-- The container that a change leaves, whether it succeeds or fails. -/
def after (container : Container) : Change → Container
  | .replaceParameters parameters => container.replaceParameters parameters
  | .addDefinition name definition =>
    match container.addDefinition name definition with
    | .ok added => added
    | .error _ => container
  | .addDependencies set => container.addDependencies set
  | .prependInitializer initializer => container.prependInitializer initializer
  | .emit artifacts => (container.emit artifacts).1
  | .generate settings files => (Generation.generate settings container files).1.1
  | .reread =>
    match ofManifest container.manifest with
    | .ok read => read
    | .error _ => container

/-- The container that changes of an empty one build. -/
def builtBy (changes : List Change) : Container :=
  changes.foldl after ∅

theorem continues_after (container : Container) (change : Change) :
    Continues container (container.after change) := by
  cases change with
  | replaceParameters parameters => exact container.continues_replaceParameters parameters
  | addDefinition name definition =>
      cases added : container.addDefinition name definition with
      | ok next =>
          rw [show container.after (.addDefinition name definition) = next by
            simp only [after, added]]
          exact continues_addDefinition added
      | error failure =>
          rw [show container.after (.addDefinition name definition) = container by
            simp only [after, added]]
          exact .refl container
  | addDependencies set => exact container.continues_addDependencies set
  | prependInitializer initializer => exact container.continues_prependInitializer initializer
  | emit artifacts => exact container.continues_addFactories 0 (factoriesOf artifacts)
  | generate settings files => exact continues_generate settings container files
  | reread =>
      rw [show container.after .reread = container by simp only [after, ofManifest_manifest]]
      exact .refl container

theorem continues_foldl (container : Container) (changes : List Change) :
    Continues container (changes.foldl after container) := by
  induction changes generalizing container with
  | nil => exact .refl container
  | cons change changes inductionHypothesis =>
      exact (container.continues_after change).trans (inductionHypothesis (container.after change))

theorem distinct_empty : (∅ : Container).Distinct where
  names := List.nodup_nil
  initializers := .nil
  artifacts := .nil

/-- In a built container all names, steps and generated files are distinct. Further changes
append definitions and keep the digests of recorded files. An addition fails exactly for a
name that is taken, and then changes nothing. -/
theorem built_containers_stay_distinct (changes : List Change) :
    (builtBy changes).Distinct ∧
    (∀ further,
      (builtBy changes).definitions <+: (builtBy (changes ++ further)).definitions ∧
      ∀ path entry, OrderedMap.entry? (builtBy changes).dependencies.files path = some entry →
        OrderedMap.entry? (builtBy (changes ++ further)).dependencies.files path = some entry) ∧
    ∀ name definition,
      ((∃ failure, (builtBy changes).addDefinition name definition = .error failure) ↔
        name ∈ (builtBy changes).names) ∧
      (name ∈ (builtBy changes).names →
        builtBy (changes ++ [.addDefinition name definition]) = builtBy changes) := by
  have appended : ∀ further, builtBy (changes ++ further) =
      further.foldl after (builtBy changes) :=
    fun further => List.foldl_append
  refine ⟨(continues_foldl ∅ changes).distinct distinct_empty, ?_, ?_⟩
  · intro further
    have continues := (builtBy changes).continues_foldl further
    rw [appended]
    exact ⟨continues.definitions, continues.digests⟩
  · intro name definition
    constructor
    · constructor
      · rintro ⟨failure, fails⟩
        exact (addDefinition_eq_error_iff.mp fails).1
      · intro isTaken
        exact ⟨_, addDefinition_eq_error_iff.mpr ⟨isTaken, rfl⟩⟩
    · intro isTaken
      have fails : (builtBy changes).addDefinition name definition = _ :=
        addDefinition_eq_error_iff.mpr ⟨isTaken, rfl⟩
      rw [appended, List.foldl_cons, List.foldl_nil]
      simp only [after, fails]

end Container

end FactoryProxy
