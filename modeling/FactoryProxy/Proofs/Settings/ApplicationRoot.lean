import FactoryProxy.Proofs.OrderedMap.Spelling
import FactoryProxy.Proofs.Settings.Writing
import FactoryProxy.Settings.Loaded

/-!
Contract: the parameter that names the root of the application.

Unless settings or overrides give it, its value is the directory of the settings file as a
text, which is then expanded like every other value. A directory keeps its name through this
exactly if no part of the name reads as a reference or as a doubled percent sign.

Owns: texts without references, the value of the parameter, and the directories that it
denotes.
-/

namespace FactoryProxy

namespace Settings

variable {parameters : Parameters} {available : Available} {opened : List String}
  {parts : List TemplatePart} {text : String}

/-! ## Texts without references -/

/-- Any two percent signs of the characters have something between them that is no name. -/
def NoneClosed (characters : List Char) : Prop :=
  ∀ before name behind, characters = before ++ '%' :: (name ++ '%' :: behind) →
    ∃ c ∈ name, isNameCharacter c = false

theorem noneClosed_nil : NoneClosed [] := by
  intro before name behind isEmpty
  simp at isEmpty

theorem noneClosed_cons {c : Char} {rest : List Char} :
    NoneClosed (c :: rest) ↔ (c = '%' → closedName? rest = none) ∧ NoneClosed rest := by
  constructor
  · intro noneClosed
    constructor
    · rintro rfl
      apply Option.eq_none_iff_forall_ne_some.mpr
      rintro ⟨name, behind⟩ closed
      obtain ⟨isRest, named⟩ := closedName?_eq_some_iff.mp closed
      obtain ⟨c, member, isOther⟩ := noneClosed [] name behind (by rw [isRest]; rfl)
      rw [named c member] at isOther
      cases isOther
    · intro before name behind isRest
      exact noneClosed (c :: before) name behind (by rw [isRest]; rfl)
  · rintro ⟨unclosed, noneClosed⟩ before name behind isText
    cases before with
    | nil =>
        obtain ⟨isPercent, isRest⟩ := List.cons.inj isText
        by_contra others
        have named : ∀ c ∈ name, isNameCharacter c = true := by
          simpa using others
        rw [closedName?_eq_some_iff.mpr ⟨isRest, named⟩] at unclosed
        cases unclosed isPercent
    | cons first more => exact noneClosed more name behind (List.cons.inj isText).2

/-- All parts of a text are characters exactly if it closes no name. -/
theorem partsOf_eq_map_character_iff (characters : List Char) :
    partsOf characters = characters.map .character ↔ NoneClosed characters := by
  fun_induction partsOf characters with
  | case1 => exact iff_of_true rfl noneClosed_nil
  | case2 rest unclosed inductionHypothesis =>
      rw [List.map_cons, List.cons_inj_right, inductionHypothesis, noneClosed_cons]
      exact (and_iff_right (fun _ => unclosed)).symm
  | case3 rest found behind closed _ inductionHypothesis =>
      refine iff_of_false ?_ ?_
      · rw [List.map_cons]
        intro same
        have isCharacter := (List.cons.inj same).1
        split at isCharacter <;> cases isCharacter
      · intro noneClosed
        rw [(noneClosed_cons.mp noneClosed).1 rfl] at closed
        cases closed
  | case4 c rest different inductionHypothesis =>
      rw [List.map_cons, List.cons_inj_right, inductionHypothesis, noneClosed_cons]
      exact (and_iff_right (fun isPercent => absurd isPercent different)).symm

theorem expand_noneClosed (parameters : Parameters) (noneClosed : NoneClosed text.toList) :
    expand parameters text = .ok text := by
  rw [expand_eq_ok_iff, (partsOf_eq_map_character_iff text.toList).mpr noneClosed,
    expandParts_characters, String.ofList_toList]

/-- Without references expansion takes one of each two doubled signs away. -/
theorem length_of_expandParts (unreferring : ∀ name, .reference name ∉ parts)
    (expanded : expandParts available opened parts = .ok text) :
    text.toList.length + parts.count .percentSign =
      (parts.flatMap TemplatePart.source).length := by
  induction parts generalizing text with
  | nil =>
      rw [expandParts] at expanded
      rw [← Except.ok.inj expanded]
      rfl
  | cons part rest inductionHypothesis =>
      have restUnreferring : ∀ name, TemplatePart.reference name ∉ rest :=
        fun name member => unreferring name (List.mem_cons_of_mem part member)
      cases part with
      | character _ | percentSign =>
          rw [expandParts_plain rfl, Sequencing.map_eq_ok] at expanded
          obtain ⟨behind, isBehind, rfl⟩ := expanded
          have further := inductionHypothesis restUnreferring isBehind
          simp [TemplatePart.source, -List.length_flatMap]
          omega
      | reference name => exact absurd List.mem_cons_self (unreferring name)

theorem eq_map_character (unreferring : ∀ name, .reference name ∉ parts)
    (unescaped : .percentSign ∉ parts) :
    parts = (parts.flatMap TemplatePart.source).map .character := by
  induction parts with
  | nil => rfl
  | cons part rest inductionHypothesis =>
      have further := inductionHypothesis
        (fun name member => unreferring name (List.mem_cons_of_mem part member))
        (fun member => unescaped (List.mem_cons_of_mem part member))
      cases part with
      | character c =>
          rw [List.flatMap_cons, List.map_append, ← further]
          rfl
      | percentSign => exact absurd List.mem_cons_self unescaped
      | reference name => exact absurd List.mem_cons_self (unreferring name)

/-- A text without references that expands to itself closes no name. -/
theorem noneClosed_of_expand (unreferring : ∀ name, .reference name ∉ partsOf text.toList)
    (expanded : expand parameters text = .ok text) : NoneClosed text.toList := by
  have lengths := length_of_expandParts unreferring (expand_eq_ok_iff.mp expanded)
  rw [flatMap_source_partsOf] at lengths
  have unescaped : TemplatePart.percentSign ∉ partsOf text.toList :=
    List.count_eq_zero.mp (by omega)
  have isText := eq_map_character unreferring unescaped
  rw [flatMap_source_partsOf] at isText
  exact (partsOf_eq_map_character_iff text.toList).mp isText

end Settings

namespace LoadedSettings

open Settings

variable {loaded : LoadedSettings} {overrides : List (String × String)}

/-! ## The value of the parameter -/

/-- Neither the settings nor the overrides give the parameter. -/
structure DefaultsRoot (loaded : LoadedSettings) (overrides : List (String × String)) : Prop where
  unset : loaded.settings.parameters.get? rootParameter = none
  notOverridden : ∀ entry ∈ overrides, entry.1 ≠ rootParameter

theorem get?_foldl_insert_other {key : String} (absent : ∀ entry ∈ overrides, entry.1 ≠ key)
    (parameters : Parameters) :
    OrderedMap.get? (overrides.foldl (fun map entry => map.insert entry.1 entry.2) parameters) key =
      parameters.get? key := by
  induction overrides generalizing parameters with
  | nil => rfl
  | cons entry rest inductionHypothesis =>
      obtain ⟨different, restAbsent⟩ := List.forall_mem_cons.mp absent
      rw [List.foldl_cons, inductionHypothesis restAbsent, OrderedMap.get?_insert,
        if_neg (Ne.symm different)]

/-- By default the parameter is the directory of the settings file. -/
theorem get?_parameters_root (defaults : loaded.DefaultsRoot overrides) :
    (loaded.parameters overrides).get? rootParameter = some loaded.baseDirectory.text := by
  unfold parameters
  rw [get?_foldl_insert_other defaults.notOverridden, OrderedMap.get?_insertNew, defaults.unset]
  simp

/-- Settings that give no parameter have the root and nothing else. -/
theorem eq_root_of_isSome {path : Path} {name : String}
    (isDefined : ((parameters ⟨path, .default⟩ []).get? name).isSome = true) :
    name = rootParameter := by
  by_contra different
  have notEqual : (compare name rootParameter == .eq) = false := by
    simpa using fun equal => different (Std.LawfulEqOrd.eq_of_compare equal)
  have unknown : (parameters ⟨path, .default⟩ []).get? name = none := by
    show OrderedMap.get? (OrderedMap.insertNew _ rootParameter _) name = none
    rw [OrderedMap.get?_insertNew, notEqual]
    rfl
  rw [unknown] at isDefined
  cases isDefined

theorem isReferenceName_root : IsReferenceName rootParameter := by decide +kernel

/-! ## Directories -/

/-- A directory in which no name is closed stands for itself, with any settings. -/
theorem expand_root (defaults : loaded.DefaultsRoot overrides)
    (noneClosed : NoneClosed loaded.baseDirectory.text.toList) {text : String}
    (plain : '%' ∉ text.toList) :
    expand (loaded.parameters overrides) ("%appDir%" ++ text) =
      .ok (loaded.baseDirectory.text ++ text) := by
  have isValue := get?_parameters_root defaults
  have expanded := expand_reference_append isReferenceName_root isValue
    (expand_noneClosed _ noneClosed) text
  rw [expand_plain _ plain] at expanded
  exact expanded

/-- A directory that stands for itself with no other parameter closes no name. -/
theorem noneClosed_of_expand_root {path : Path}
    (expanded : expand (parameters ⟨path, .default⟩ []) "%appDir%" =
      .ok (baseDirectory ⟨path, .default⟩).text) :
    NoneClosed (baseDirectory ⟨path, .default⟩).text.toList := by
  have defaults : DefaultsRoot ⟨path, .default⟩ [] := ⟨rfl, fun entry member => by cases member⟩
  have isValue := get?_parameters_root defaults
  obtain ⟨value, defined, isExpanded⟩ :=
    (expand_reference_eq_ok_iff isReferenceName_root).mp expanded
  obtain rfl := Option.some.inj (isValue.symm.trans defined)
  have succeeds := Sequencing.isOk_iff_exists.mpr ⟨_, expand_eq_ok_iff.mp isExpanded⟩
  have sound := (isOk_expandParts_iff (remains_start _)).mp succeeds
  refine noneClosed_of_expand (fun name member => ?_) isExpanded
  -- The only name with a parameter is the root, whose value would lead back to it.
  obtain ⟨_, isDefined, straight⟩ := sound name (.refers member)
  obtain rfl := eq_root_of_isSome isDefined
  exact straight ⟨_, isValue, .refers member⟩

theorem anchor_absolute {base : Path} (absolute : base.isAbsolute = true) (text : String) :
    anchor base (base.text ++ text) = ⟨base.text ++ text⟩ := by
  have isAbsolute : Path.isAbsolute ⟨base.text ++ text⟩ = true := by
    unfold Path.isAbsolute at absolute ⊢
    rw [String.toList_append]
    cases isText : base.text.toList with
    | nil =>
        rw [isText] at absolute
        cases absolute
    | cons first rest =>
        rw [isText] at absolute
        exact absolute
  unfold anchor Path.join
  rw [isAbsolute]
  rfl

/-- The directories of a run are the expanded ones, anchored at the directory of the file. -/
theorem resolve_eq_ok {parameters : Parameters} {contributions : List Contribution}
    {resolved : ResolvedSettings}
    (isResolved : loaded.resolve parameters contributions = .ok resolved) :
    (∃ text, expand parameters loaded.settings.proxyDirectory = .ok text ∧
        resolved.proxyDirectory = anchor loaded.baseDirectory text) ∧
      ∃ directories, require "source_dirs" loaded.settings.sourceDirectories = .ok directories ∧
        ∀ directory ∈ directories, ∃ text, expand parameters directory = .ok text ∧
          anchor loaded.baseDirectory text ∈ resolved.sourceDirectories := by
  unfold LoadedSettings.resolve Settings.resolve at isResolved
  obtain ⟨proxyText, isProxyText, further⟩ := Sequencing.bind_eq_ok.mp isResolved
  obtain ⟨directories, areDirectories, further⟩ := Sequencing.bind_eq_ok.mp further
  obtain ⟨anchored, areAnchored, further⟩ := Sequencing.bind_eq_ok.mp further
  obtain ⟨targets, _, isRest⟩ := Sequencing.bind_eq_ok.mp further
  obtain rfl := Except.ok.inj isRest
  refine ⟨⟨proxyText, isProxyText, rfl⟩, directories, areDirectories, ?_⟩
  intro directory member
  obtain ⟨path, isPath, isAnchored⟩ := Sequencing.exists_right
    (Sequencing.mapM_eq_ok.mp areAnchored) (List.mem_append_left _ member)
  obtain ⟨text, isText, rfl⟩ := Sequencing.map_eq_ok.mp isAnchored
  exact ⟨text, isText, isPath⟩

/-- The root parameter stands for the directory of the settings file, whatever the settings
are, exactly if no two percent signs in the path of the directory close a name. Then the
default directory of generated files and the source directories that are named from the root
are below that directory. -/
theorem root_denotes_directory_iff (path : Path) :
    ((∀ (loaded : LoadedSettings) (overrides : List (String × String)) (text : String),
        loaded.path = path → loaded.DefaultsRoot overrides → '%' ∉ text.toList →
          expand (loaded.parameters overrides) ("%appDir%" ++ text) =
            .ok (loaded.baseDirectory.text ++ text)) ↔
      NoneClosed (path.parent?.getD ⟨""⟩).text.toList) ∧
    ∀ (loaded : LoadedSettings) (overrides : List (String × String))
      (contributions : List Contribution) (resolved : ResolvedSettings),
      loaded.path = path → loaded.DefaultsRoot overrides →
      NoneClosed (path.parent?.getD ⟨""⟩).text.toList → loaded.baseDirectory.isAbsolute = true →
      loaded.resolve (loaded.parameters overrides) contributions = .ok resolved →
        (loaded.settings.proxyDirectory = defaultProxyDirectory →
          resolved.proxyDirectory = ⟨loaded.baseDirectory.text ++ "/../temp/proxies"⟩) ∧
        ∀ directories, loaded.settings.sourceDirectories = some directories →
          ∀ text, '%' ∉ text.toList → "%appDir%" ++ text ∈ directories.toList →
            ⟨loaded.baseDirectory.text ++ text⟩ ∈ resolved.sourceDirectories := by
  refine ⟨⟨?_, ?_⟩, ?_⟩
  · intro denotes
    have expanded := denotes ⟨path, .default⟩ [] "" rfl
      ⟨rfl, fun entry member => by cases member⟩ List.not_mem_nil
    rw [String.append_empty, String.append_empty] at expanded
    exact noneClosed_of_expand_root expanded
  · rintro noneClosed loaded overrides text rfl defaults plain
    exact expand_root defaults noneClosed plain
  · rintro loaded overrides contributions resolved rfl defaults noneClosed absolute isResolved
    obtain ⟨⟨proxyText, isProxyText, isProxy⟩, required, areRequired, areAnchored⟩ :=
      resolve_eq_ok isResolved
    constructor
    · intro isDefault
      have plain : '%' ∉ "/../temp/proxies".toList := by decide +kernel
      have isRoot : defaultProxyDirectory = "%appDir%" ++ "/../temp/proxies" := by decide +kernel
      rw [isDefault, isRoot, expand_root defaults noneClosed plain] at isProxyText
      rw [isProxy, ← Except.ok.inj isProxyText, anchor_absolute absolute]
    · intro directories areDirectories text plain member
      rw [areDirectories] at areRequired
      obtain rfl := Except.ok.inj areRequired
      obtain ⟨expanded, isExpanded, isAnchored⟩ := areAnchored _ member
      rw [expand_root defaults noneClosed plain] at isExpanded
      rw [← Except.ok.inj isExpanded, anchor_absolute absolute] at isAnchored
      exact isAnchored

/-- Percent signs that close no name stay in the directory. -/
theorem separate_signs_of_directory_stay :
    NoneClosed "/srv/100% sure%".toList ∧
      expand (parameters ⟨⟨"/srv/100% sure%/autofactory.toml"⟩, .default⟩ [])
        ("%appDir%" ++ "/src") = .ok "/srv/100% sure%/src" := by
  have noneClosed : NoneClosed "/srv/100% sure%".toList :=
    (partsOf_eq_map_character_iff _).mp (by decide +kernel)
  have isDirectory : (Path.mk "/srv/100% sure%/autofactory.toml").parent? =
      some ⟨"/srv/100% sure%"⟩ := by decide +kernel
  have denotes := (root_denotes_directory_iff ⟨"/srv/100% sure%/autofactory.toml"⟩).1.mpr
    (by rw [isDirectory]; exact noneClosed)
  refine ⟨noneClosed, ?_⟩
  rw [denotes ⟨⟨"/srv/100% sure%/autofactory.toml"⟩, .default⟩ [] "/src" rfl
    ⟨rfl, fun entry member => by cases member⟩ (by decide +kernel)]
  unfold baseDirectory
  rw [isDirectory]
  rfl

/-- Settings in a directory whose path has two percent signs side by side. -/
def inDoubledDirectory : LoadedSettings := ⟨⟨"/srv/a%%b/autofactory.toml"⟩, .default⟩

/-- The root parameter gives another directory there, with one percent sign. -/
theorem doubled_sign_of_directory_lost :
    inDoubledDirectory.DefaultsRoot [] ∧ '%' ∉ "/src".toList ∧
      inDoubledDirectory.baseDirectory.text = "/srv/a%%b" ∧
      expand (inDoubledDirectory.parameters []) ("%appDir%" ++ "/src") = .ok "/srv/a%b/src" ∧
      expand (inDoubledDirectory.parameters []) ("%appDir%" ++ "/src") ≠
        .ok (inDoubledDirectory.baseDirectory.text ++ "/src") := by
  have computed : (expandNested (inDoubledDirectory.parameters []) 1 []
      (partsOf ("%appDir%" ++ "/src").toList)).map (Except.mapError .configuration) =
        some (.ok "/srv/a%b/src" : Except Failure String) := by
    decide +kernel
  have enough : (inDoubledDirectory.parameters []).size ≤ 1 := by decide +kernel
  have expanded := Option.some.inj ((expandNested_start _ enough).symm.trans computed)
  refine ⟨⟨by decide +kernel, fun entry member => by cases member⟩, by decide +kernel,
    by decide +kernel, expanded, ?_⟩
  rw [expanded]
  decide +kernel

end LoadedSettings

end FactoryProxy
