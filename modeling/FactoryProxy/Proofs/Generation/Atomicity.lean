import FactoryProxy.Proofs.Generation.Steps

/-!
Contract: the container after a generation run that fails.

Owns: what a failed run leaves in its container, and exactly when that is the
container from before the run.
-/

namespace FactoryProxy.Container

/-! ## An emission that fails -/

/-- The first taken name is that of a slot behind the first factory and not behind
the last one. -/
def StopsAt (container : Container) (slot : Nat) (artifacts : List PersistedArtifact) : Prop :=
  0 < slot ∧ slot < (factoriesOf artifacts).length ∧
    container.hasDefinition (definitionName slot) = true ∧
    ∀ before < slot, container.hasDefinition (definitionName before) = false

/-- The container with the definitions of the factories before a slot. -/
def keepingBefore (container : Container) (slot : Nat) (artifacts : List PersistedArtifact) :
    Container :=
  { container with
    definitions := container.definitions ++ (numberedFrom 0 (factoriesOf artifacts)).take slot }

theorem freeSlots_of_stopsAt {container : Container} {slot : Nat}
    {artifacts : List PersistedArtifact} (stops : container.StopsAt slot artifacts) :
    container.freeSlots 0 (factoriesOf artifacts).length = slot := by
  obtain ⟨_, below, taken, free⟩ := stops
  rcases Nat.lt_trichotomy (container.freeSlots 0 (factoriesOf artifacts).length) slot with
    early | same | late
  · have ends := container.hasDefinition_freeSlots (Nat.lt_trans early below)
    rw [Nat.zero_add, free _ early] at ends
    cases ends
  · exact same
  · have isFree := container.hasDefinition_of_lt_freeSlots late
    rw [Nat.zero_add, taken] at isFree
    cases isFree

theorem keepingBefore_zero (container : Container) (artifacts : List PersistedArtifact) :
    container.keepingBefore 0 artifacts = container := by
  unfold keepingBefore
  rw [List.take_zero, List.append_nil]

theorem keepingBefore_ne {container : Container} {slot : Nat}
    {artifacts : List PersistedArtifact} (positive : 0 < slot)
    (below : slot < (factoriesOf artifacts).length) :
    container.keepingBefore slot artifacts ≠ container := by
  intro same
  have sameLength := congrArg (fun container => container.definitions.length) same
  simp only [keepingBefore, List.length_append, List.length_take, length_numberedFrom] at sameLength
  omega

/-- A failed emission leaves the factories before the first taken name. -/
theorem emit_error {container left : Container} {artifacts : List PersistedArtifact}
    {failure : Failure} (failed : container.emit artifacts = (left, .error failure)) :
    ∃ slot, slot < (factoriesOf artifacts).length ∧
      container.freeSlots 0 (factoriesOf artifacts).length = slot ∧
      left = container.keepingBefore slot artifacts ∧
      failure = .configuration (.repeatedService (definitionName slot)) := by
  rw [emit_eq] at failed
  obtain ⟨isLeft, outcome⟩ := Prod.mk.inj failed
  by_cases all : container.freeSlots 0 (factoriesOf artifacts).length =
      (factoriesOf artifacts).length
  · rw [if_pos all] at outcome
    cases outcome
  · rw [if_neg all] at outcome
    refine ⟨_, ?_, rfl, isLeft.symm, (Except.error.inj outcome).symm⟩
    exact Nat.lt_of_le_of_ne (container.freeSlots_le 0 _) all

theorem stopsAt_freeSlots {container : Container} {artifacts : List PersistedArtifact}
    (positive : 0 < container.freeSlots 0 (factoriesOf artifacts).length)
    (below : container.freeSlots 0 (factoriesOf artifacts).length <
      (factoriesOf artifacts).length) :
    container.StopsAt (container.freeSlots 0 (factoriesOf artifacts).length) artifacts := by
  refine ⟨positive, below, ?_, ?_⟩
  · have taken := container.hasDefinition_freeSlots below
    rw [Nat.zero_add] at taken
    exact taken
  · intro before isBefore
    have free := container.hasDefinition_of_lt_freeSlots isBefore
    rw [Nat.zero_add] at free
    exact free

end FactoryProxy.Container

namespace FactoryProxy.Generation

variable {settings : ResolvedSettings} {container left : Container} {files : FileSystem}
  {failure : Failure}

/-! ## A run that fails -/

/-- A failed run failed before its description, or it failed in the emission. -/
theorem generate_error (failed : (generate settings container files).1 = (left, .error failure)) :
    ((writeArtifacts settings files).1 = .error failure ∧ left = container) ∨
      ∃ written, (writeArtifacts settings files).1 = .ok written ∧
        container.emit written.persisted = (left, .error failure) := by
  rcases wrote : writeArtifacts settings files with ⟨outcome, after⟩
  cases outcome with
  | error cause =>
      rw [generate_of_unwritten container wrote] at failed
      cases failed
      exact .inl ⟨rfl, rfl⟩
  | ok written =>
      rw [generate_of_written container wrote] at failed
      exact .inr ⟨written, rfl, describe_eq_error.mp failed⟩

/-- A failed run leaves its container as it was, except that an emission which stops
behind the first factory keeps the definitions before the taken name. -/
theorem container_after_failure
    (failed : (generate settings container files).1 = (left, .error failure)) :
    left.parameters = container.parameters ∧
      left.dependencies = container.dependencies ∧
      left.initializers = container.initializers ∧
      (left = container ↔
        ¬ ∃ written slot, (writeArtifacts settings files).1 = .ok written ∧
          container.StopsAt slot written.persisted) ∧
      ∀ written slot, (writeArtifacts settings files).1 = .ok written →
        container.StopsAt slot written.persisted →
          left = container.keepingBefore slot written.persisted ∧
            failure = .configuration (.repeatedService (Container.definitionName slot)) := by
  rcases generate_error failed with ⟨unwritten, rfl⟩ | ⟨written, wrote, emission⟩
  · have never : ¬ ∃ written slot, (writeArtifacts settings files).1 = .ok written ∧
        left.StopsAt slot written.persisted := by
      rintro ⟨written, slot, wrote, _⟩
      rw [unwritten] at wrote
      cases wrote
    refine ⟨rfl, rfl, rfl, ⟨fun _ => never, fun _ => rfl⟩, ?_⟩
    intro written slot wrote stops
    exact absurd ⟨written, slot, wrote, stops⟩ never
  · obtain ⟨free, below, isFree, rfl, rfl⟩ := Container.emit_error emission
    refine ⟨rfl, rfl, rfl, ⟨?_, ?_⟩, ?_⟩
    · rintro same ⟨written', slot, wrote', stops⟩
      rw [wrote] at wrote'
      obtain rfl := Except.ok.inj wrote'
      rw [Container.freeSlots_of_stopsAt stops] at isFree
      rw [← isFree] at same
      exact Container.keepingBefore_ne stops.1 stops.2.1 same
    · intro never
      rcases Nat.eq_zero_or_pos free with isZero | positive
      · rw [isZero]
        exact container.keepingBefore_zero written.persisted
      · rw [← isFree] at positive below
        exact absurd ⟨written, _, wrote, Container.stopsAt_freeSlots positive below⟩ never
    · intro written' slot wrote' stops
      rw [wrote] at wrote'
      obtain rfl := Except.ok.inj wrote'
      rw [Container.freeSlots_of_stopsAt stops] at isFree
      rw [isFree]
      exact ⟨rfl, rfl⟩

/-! ## A taken name between free ones -/

/-- A container in which the name of the second factory is taken. -/
def secondTaken : Container :=
  { Container.empty with definitions := [(Container.definitionName 1, .empty)] }

/-- What the run that stops at the taken name leaves. -/
def firstEmitted : Container :=
  secondTaken.keepingBefore 1 [
    ⟨"A___GeneratedFactoryInterface", "G\\A___GeneratedFactoryInterface", some "A",
      ⟨"p/A___GeneratedFactoryInterface.php"⟩⟩]

set_option maxRecDepth 100000 in
theorem run_with_second_taken :
    (generate scanForT secondTaken twoClasses).1 =
      (firstEmitted, .error (.configuration (.repeatedService "autofactory.factory.1"))) := by
  decide +kernel

/-- A run that fails may leave a definition behind. -/
theorem failed_run_keeps_definition :
    ¬ ∀ (settings : ResolvedSettings) (container left : Container) (files : FileSystem)
        (failure : Failure),
      (generate settings container files).1 = (left, .error failure) →
        left.definitions = container.definitions := by
  intro unchanged
  have same := unchanged scanForT secondTaken firstEmitted twoClasses _ run_with_second_taken
  revert same
  decide +kernel

/-- The run writes its artifacts and stops behind the first factory. -/
theorem second_taken_stops_midway :
    ∃ written slot, (writeArtifacts scanForT twoClasses).1 = .ok written ∧
      secondTaken.StopsAt slot written.persisted := by
  have changed : firstEmitted ≠ secondTaken := by decide +kernel
  have exactly := (container_after_failure run_with_second_taken).2.2.2.1
  exact Classical.byContradiction (fun never => changed (exactly.mpr never))

end FactoryProxy.Generation
