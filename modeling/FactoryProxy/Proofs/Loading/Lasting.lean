import FactoryProxy.Proofs.Loading.ProxyDirectory
import FactoryProxy.Proofs.Sequencing

/-!
Contract: what a host has loaded lasts.

A request repeats what is loaded under the key of its name, or else loads the file that the
first resolver with an answer gives. However resolvers, their answers and the files change
between requests, a loaded type is never replaced, and nothing becomes a loaded type but
what a request has found.

Owns: what one request does, the events in the life of a host, and what is loaded after them.
-/

namespace FactoryProxy.Autoloader

open Sequencing

variable {host next : Autoloader} {files : FileSystem} {name spelled : String}
  {type : LoadedType} {answer : Option LoadedType}

/-! ## One request -/

/-- The type is that of the file which the first resolver with an answer gives. -/
structure FirstAnswer (host : Autoloader) (files : FileSystem) (name : String)
    (type : LoadedType) : Prop where
  named : type.name = Name.trimLeading name
  resolved : ∃ silent resolver others, host.resolvers = silent ++ resolver :: others ∧
    resolver.resolve files name = some type.path ∧
    ∀ former ∈ silent, former.resolve files name = none
  isRead : files.readText type.path = .ok type.source

/-- The host with a type loaded under the key of a name. -/
def define (host : Autoloader) (name : String) (type : LoadedType) : Autoloader :=
  { host with defined := (typeKey name, type) :: host.defined }

theorem loaded?_define (host : Autoloader) (name spelled : String) (type : LoadedType) :
    (host.define name type).loaded? spelled =
      if typeKey spelled = typeKey name then some type else host.loaded? spelled := by
  show List.lookup (typeKey spelled) ((typeKey name, type) :: host.defined) = _
  rw [List.lookup_cons]
  by_cases same : typeKey spelled = typeKey name
  · rw [if_pos same, same, beq_self_eq_true]
  · rw [if_neg same, beq_false_of_ne same]
    rfl

theorem loaded?_of_key (same : typeKey spelled = typeKey name) :
    host.loaded? spelled = host.loaded? name := by
  unfold loaded?
  rw [same]

/-- What is loaded is given again, whatever the files are. -/
theorem load_of_loaded? (isLoaded : host.loaded? name = some type) (files : FileSystem) :
    host.load files name = .ok (host, some type) := by
  unfold load
  rw [isLoaded]

/-- A request for a new key loads the file that the first resolver with an answer gives. -/
theorem load_of_firstAnswer (isNew : host.loaded? name = none)
    (first : host.FirstAnswer files name type) :
    host.load files name = .ok (host.define name type, some type) := by
  obtain ⟨typeName, path, source⟩ := type
  obtain ⟨rfl, ⟨silent, resolver, others, areAll, answers, areSilent⟩, isRead⟩ := first
  have resolved : host.resolvers.findSome? (fun resolver => resolver.resolve files name) =
      some path :=
    List.findSome?_eq_some_iff.mpr ⟨silent, resolver, others, areAll, answers, areSilent⟩
  unfold load
  rw [isNew, resolved]
  dsimp only
  rw [isRead]
  rfl

/-- All that a request can do: repeat what is loaded, find nothing, or load a file. -/
theorem load_cases (loads : host.load files name = .ok (next, answer)) :
    (∃ type, host.loaded? name = some type ∧ next = host ∧ answer = some type) ∨
      (host.loaded? name = none ∧ next = host ∧ answer = none) ∨
      ∃ type, host.loaded? name = none ∧ host.FirstAnswer files name type ∧
        next = host.define name type ∧ answer = some type := by
  unfold load at loads
  cases isLoaded : host.loaded? name with
  | some type =>
      rw [isLoaded] at loads
      cases loads
      exact .inl ⟨type, rfl, rfl, rfl⟩
  | none =>
      rw [isLoaded] at loads
      dsimp only at loads
      split at loads
      · cases loads
        exact .inr (.inl ⟨rfl, rfl, rfl⟩)
      · rename_i path resolved
        obtain ⟨silent, resolver, others, areAll, answers, areSilent⟩ :=
          List.findSome?_eq_some_iff.mp resolved
        split at loads
        · cases loads
        · rename_i source isRead
          cases loads
          have first : host.FirstAnswer files name ⟨Name.trimLeading name, path, source⟩ :=
            ⟨rfl, ⟨silent, resolver, others, areAll, answers, areSilent⟩, isRead⟩
          exact .inr (.inr ⟨_, rfl, first, rfl, rfl⟩)

/-- A type that a request has given is loaded from then on. -/
theorem loaded?_of_load (loads : host.load files name = .ok (next, some type)) :
    next.loaded? name = some type := by
  rcases load_cases loads with ⟨other, isLoaded, rfl, isAnswer⟩ | ⟨_, _, noAnswer⟩ |
    ⟨other, _, _, rfl, isAnswer⟩
  · rw [isLoaded, isAnswer]
  · cases noAnswer
  · rw [loaded?_define, if_pos rfl, isAnswer]

/-! ## The life of a host -/

/-- A resolver is registered, a type is requested while the files are such, or resolvers
come to answer otherwise than they did. -/
inductive Event where
  | register (resolver : Resolver)
  | load (files : FileSystem) (name : String)
  | change (answers : Resolver → FileSystem → String → Option Path)

/-- The host after an event. A registration or a request that fails leaves it as it was. -/
def after (host : Autoloader) : Event → Autoloader
  | .register resolver =>
    match host.register resolver with
    | .ok (next, _) => next
    | .error _ => host
  | .load files name =>
    match host.load files name with
    | .ok (next, _) => next
    | .error _ => host
  | .change answers =>
    { host with resolvers := host.resolvers.map (fun resolver =>
        { resolver with resolve := answers resolver }) }

def afterAll (host : Autoloader) (events : List Event) : Autoloader :=
  events.foldl after host

/-- A registration appends its resolver or does nothing. -/
theorem after_register_cases (host : Autoloader) (resolver : Resolver) :
    host.after (.register resolver) = host ∨
      host.after (.register resolver) =
        { host with resolvers := host.resolvers ++ [resolver] } := by
  simp only [after, register]
  by_cases takesNone : (!host.takesResolvers) = true
  · rw [if_pos takesNone]
    exact .inl rfl
  · rw [if_neg takesNone]
    by_cases present : host.isRegistered resolver.id = true
    · rw [if_pos present]
      exact .inl rfl
    · rw [if_neg present]
      exact .inr rfl

theorem after_load_of_ok (loads : host.load files name = .ok (next, answer)) :
    host.after (.load files name) = next := by
  simp only [after, loads]

theorem after_load_of_error {failure : Failure}
    (fails : host.load files name = .error failure) : host.after (.load files name) = host := by
  simp only [after, fails]

/-- A request that gives no type leaves the host as it was. -/
theorem after_load_of_none
    (givesNone : ∀ next type, host.load files name ≠ .ok (next, some type)) :
    host.after (.load files name) = host := by
  cases loads : host.load files name with
  | error failure => exact after_load_of_error loads
  | ok result =>
      obtain ⟨next, answer⟩ := result
      cases answer with
      | some type => exact absurd loads (givesNone next type)
      | none =>
          rw [after_load_of_ok loads]
          rcases load_cases loads with ⟨_, _, same, _⟩ | ⟨_, same, _⟩ | ⟨_, _, _, _, isAnswer⟩
          · exact same
          · exact same
          · cases isAnswer

/-- A request leaves the host as it was, or loads what it has found under a new key. -/
theorem after_load_cases (host : Autoloader) (files : FileSystem) (name : String) :
    host.after (.load files name) = host ∨
      ∃ type, host.loaded? name = none ∧ host.FirstAnswer files name type ∧
        host.after (.load files name) = host.define name type := by
  cases loads : host.load files name with
  | error failure => exact .inl (after_load_of_error loads)
  | ok result =>
      rw [after_load_of_ok loads]
      rcases load_cases loads with ⟨_, _, same, _⟩ | ⟨_, same, _⟩ | ⟨type, isNew, first, same, _⟩
      · exact .inl same
      · exact .inl same
      · exact .inr ⟨type, isNew, first, same⟩

/-! ## What an event keeps -/

theorem loaded?_after (isLoaded : host.loaded? name = some type) (event : Event) :
    (host.after event).loaded? name = some type := by
  cases event with
  | register resolver =>
      rcases host.after_register_cases resolver with same | appended
      · rw [same]
        exact isLoaded
      · rw [appended]
        exact isLoaded
  | load files spelled =>
      rcases host.after_load_cases files spelled with same | ⟨other, isNew, _, isDefined⟩
      · rw [same]
        exact isLoaded
      · -- The new key is another one, since nothing was loaded under it.
        have different : typeKey name ≠ typeKey spelled := by
          intro sameKey
          rw [loaded?_of_key sameKey, isNew] at isLoaded
          cases isLoaded
        rw [isDefined, loaded?_define, if_neg different]
        exact isLoaded
  | change answers => exact isLoaded

/-- A type that an event has made was found by a request for its key. -/
theorem origin_of_after {event : Event} (isLoaded : (host.after event).loaded? name = some type) :
    host.loaded? name = some type ∨
      ∃ files spelled, event = .load files spelled ∧ typeKey spelled = typeKey name ∧
        host.loaded? name = none ∧ host.FirstAnswer files spelled type := by
  cases event with
  | register resolver =>
      rcases host.after_register_cases resolver with same | appended
      · rw [same] at isLoaded
        exact .inl isLoaded
      · rw [appended] at isLoaded
        exact .inl isLoaded
  | load files spelled =>
      rcases host.after_load_cases files spelled with same | ⟨other, isNew, first, isDefined⟩
      · rw [same] at isLoaded
        exact .inl isLoaded
      · rw [isDefined, loaded?_define] at isLoaded
        by_cases sameKey : typeKey name = typeKey spelled
        · rw [if_pos sameKey] at isLoaded
          obtain rfl := Option.some.inj isLoaded
          refine .inr ⟨files, spelled, rfl, sameKey.symm, ?_, first⟩
          rw [loaded?_of_key sameKey]
          exact isNew
        · rw [if_neg sameKey] at isLoaded
          exact .inl isLoaded
  | change answers => exact .inl isLoaded

/-- Resolvers stay in the order of their registration. -/
theorem ids_prefix_after (host : Autoloader) (event : Event) :
    host.resolvers.map Resolver.id <+: (host.after event).resolvers.map Resolver.id := by
  cases event with
  | register resolver =>
      rcases host.after_register_cases resolver with same | appended
      · simp only [same, List.prefix_refl]
      · rw [appended, List.map_append]
        exact List.prefix_append _ _
  | load files spelled =>
      rcases host.after_load_cases files spelled with same | ⟨other, _, _, isDefined⟩
      · simp only [same, List.prefix_refl]
      · simp only [isDefined, define, List.prefix_refl]
  | change answers =>
      have sameIds : (host.after (.change answers)).resolvers.map Resolver.id =
          host.resolvers.map Resolver.id := by
        show (host.resolvers.map _).map Resolver.id = _
        rw [List.map_map]
        rfl
      simp only [sameIds, List.prefix_refl]

/-! ## What all events keep -/

theorem loaded?_afterAll (isLoaded : host.loaded? name = some type) (events : List Event) :
    (host.afterAll events).loaded? name = some type := by
  induction events generalizing host with
  | nil => exact isLoaded
  | cons event events inductionHypothesis =>
      exact inductionHypothesis (loaded?_after isLoaded event)

theorem ids_prefix_afterAll (host : Autoloader) (events : List Event) :
    host.resolvers.map Resolver.id <+: (host.afterAll events).resolvers.map Resolver.id := by
  induction events generalizing host with
  | nil => exact List.prefix_refl _
  | cons event events inductionHypothesis =>
      exact (host.ids_prefix_after event).trans (inductionHypothesis (host.after event))

/-- A type that events have made was found by the first request for its key. -/
theorem origin_of_afterAll {events : List Event}
    (isLoaded : (host.afterAll events).loaded? name = some type) :
    host.loaded? name = some type ∨
      ∃ before files spelled behind, events = before ++ .load files spelled :: behind ∧
        typeKey spelled = typeKey name ∧ (host.afterAll before).loaded? name = none ∧
        (host.afterAll before).FirstAnswer files spelled type := by
  induction events generalizing host with
  | nil => exact .inl isLoaded
  | cons event events inductionHypothesis =>
      rcases inductionHypothesis isLoaded with isMade |
        ⟨before, files, spelled, behind, rfl, sameKey, wasNew, first⟩
      · rcases origin_of_after isMade with wasLoaded |
          ⟨files, spelled, rfl, sameKey, wasNew, first⟩
        · exact .inl wasLoaded
        · exact .inr ⟨[], files, spelled, events, rfl, sameKey, wasNew, first⟩
      · exact .inr ⟨event :: before, files, spelled, behind, rfl, sameKey, wasNew, first⟩

/-! ## Loaded types last -/

/-- A type that was given once is given to all later requests for its key. A request that
gives none changes nothing. Resolvers stay in their order, and what is loaded was found by
the first request for its key, in the file that the first resolver with an answer gave. -/
theorem loaded_types_last (host : Autoloader) :
    (∀ files name next type, host.load files name = .ok (next, some type) →
      ∀ events later spelled, typeKey spelled = typeKey name →
        (next.afterAll events).load later spelled = .ok (next.afterAll events, some type)) ∧
    (∀ files name, (∀ next type, host.load files name ≠ .ok (next, some type)) →
      host.after (.load files name) = host) ∧
    (∀ files name next type, host.loaded? name = none →
      (host.load files name = .ok (next, some type) ↔
        host.FirstAnswer files name type ∧ next = host.define name type)) ∧
    ∀ events,
      host.resolvers.map Resolver.id <+: (host.afterAll events).resolvers.map Resolver.id ∧
      ∀ name type, (host.afterAll events).loaded? name = some type →
        host.loaded? name = some type ∨
          ∃ before files spelled behind, events = before ++ .load files spelled :: behind ∧
            typeKey spelled = typeKey name ∧ (host.afterAll before).loaded? name = none ∧
            (host.afterAll before).FirstAnswer files spelled type := by
  refine ⟨?_, fun files name => after_load_of_none, ?_, ?_⟩
  · intro files name next type loads events later spelled sameKey
    have staysLoaded := loaded?_afterAll (loaded?_of_load loads) events
    rw [← loaded?_of_key sameKey] at staysLoaded
    exact load_of_loaded? staysLoaded later
  · intro files name next type isNew
    constructor
    · intro loads
      rcases load_cases loads with ⟨other, isLoaded, _, _⟩ | ⟨_, _, noAnswer⟩ |
        ⟨other, _, first, isDefined, isAnswer⟩
      · rw [isNew] at isLoaded
        cases isLoaded
      · cases noAnswer
      · obtain rfl := Option.some.inj isAnswer
        exact ⟨first, isDefined⟩
    · rintro ⟨first, rfl⟩
      exact load_of_firstAnswer isNew first
  · intro events
    exact ⟨host.ids_prefix_afterAll events, fun name type => origin_of_afterAll⟩

/-- A host that loads the types of `G` from the directory `p`. -/
def servingG : Autoloader :=
  empty.after (.register (ProxyLoader.mk ⟨"p"⟩ "G").resolver)

/-- All resolvers fall silent after another one was registered and asked in vain. -/
def fallingSilent : List Event :=
  [.register (ProxyLoader.mk ⟨""⟩ "").resolver, .load ⟨∅, []⟩ "G\\B",
    .change (fun _ _ _ => none)]

theorem type_outlives_its_file :
    ∃ next, servingG.load ProxyLoader.fileOutside "G\\A" =
        .ok (next, some ⟨"G\\A", ⟨"p/A.php"⟩, "<?php"⟩) ∧
      (next.afterAll fallingSilent).load ⟨∅, []⟩ "\\g\\a" =
        .ok (next.afterAll fallingSilent, some ⟨"G\\A", ⟨"p/A.php"⟩, "<?php"⟩) := by
  have answers : (servingG.load ProxyLoader.fileOutside "G\\A").map Prod.snd =
      .ok (some ⟨"G\\A", ⟨"p/A.php"⟩, "<?php"⟩) := by
    decide +kernel
  obtain ⟨⟨next, answer⟩, loads, rfl⟩ := map_eq_ok.mp answers
  have sameKey : typeKey "\\g\\a" = typeKey "G\\A" := by decide +kernel
  exact ⟨next, loads, (loaded_types_last servingG).1 _ _ _ _ loads fallingSilent _ _ sameKey⟩

end FactoryProxy.Autoloader
