import FactoryProxy.Name.Basic
import FactoryProxy.Proofs.Text.Folding

/-!
Contract: what a trimmed text is.

Owns: texts without outer characters of a class, the trimmings as the way to them,
and the names whose look-up key has no outer white space.
-/

namespace FactoryProxy.Text

variable {α : Type} {inClass : α → Bool}

/-! ## Lists -/

/-- Neither the first nor the last element is in the class. -/
def Trimmed (inClass : α → Bool) (elements : List α) : Prop :=
  (∀ first, elements.head? = some first → inClass first = false) ∧
    ∀ last, elements.getLast? = some last → inClass last = false

theorem dropWhile_eq_self {elements : List α}
    (starts : ∀ first, elements.head? = some first → inClass first = false) :
    elements.dropWhile inClass = elements := by
  cases elements with
  | nil => rfl
  | cons head tail =>
      have outside := starts head rfl
      exact List.dropWhile_cons_of_neg (Bool.eq_false_iff.mp outside)

theorem dropTail_eq_self {elements : List α}
    (ends : ∀ last, elements.getLast? = some last → inClass last = false) :
    dropTail inClass elements = elements := by
  unfold dropTail
  rw [dropWhile_eq_self, List.reverse_reverse]
  intro first isFirst
  rw [List.head?_reverse] at isFirst
  exact ends first isFirst

/-- What precedes an element outside the class stays. -/
theorem dropTail_cons {head : α} (tail : List α) (outside : inClass head = false) :
    dropTail inClass (head :: tail) = head :: dropTail inClass tail := by
  have keepsHead : List.dropWhile inClass [head] = [head] :=
    List.dropWhile_cons_of_neg (Bool.eq_false_iff.mp outside)
  unfold dropTail
  rw [List.reverse_cons, List.dropWhile_append, keepsHead]
  cases dropped : List.dropWhile inClass tail.reverse with
  | nil => rfl
  | cons first rest => simp

theorem dropTail_prefix (inClass : α → Bool) (elements : List α) :
    dropTail inClass elements <+: elements := by
  have isSuffix := List.dropWhile_suffix (l := elements.reverse) inClass
  rw [← List.reverse_prefix, List.reverse_reverse] at isSuffix
  exact isSuffix

theorem head?_dropTail {elements : List α} {first : α}
    (isFirst : (dropTail inClass elements).head? = some first) :
    elements.head? = some first := by
  obtain ⟨dropped, isWhole⟩ := dropTail_prefix inClass elements
  rw [← isWhole, List.head?_append, isFirst]
  rfl

/-- Elements dropped at both ends leave a trimmed list. -/
theorem trimmed_dropTail_dropWhile (elements : List α) :
    Trimmed inClass (dropTail inClass (elements.dropWhile inClass)) := by
  constructor
  · intro first isFirst
    have dropped := List.head?_dropWhile_not inClass elements
    rw [head?_dropTail isFirst] at dropped
    simpa using dropped
  · intro last isLast
    have dropped := List.head?_dropWhile_not inClass (elements.dropWhile inClass).reverse
    unfold dropTail at isLast
    rw [List.getLast?_reverse] at isLast
    rw [isLast] at dropped
    simpa using dropped

theorem mem_dropWhile {element : α} {elements : List α} (member : element ∈ elements)
    (outside : inClass element = false) : element ∈ elements.dropWhile inClass := by
  rw [← List.takeWhile_append_dropWhile (p := inClass) (l := elements), List.mem_append] at member
  rcases member with dropped | isLeft
  · have inside := List.all_eq_true.mp List.all_takeWhile _ dropped
    rw [outside] at inside
    cases inside
  · exact isLeft

/-! ## Texts -/

/-- Characters outside the class stay. -/
theorem mem_trim {inClass : Char → Bool} {c : Char} {text : String} (member : c ∈ text.toList)
    (outside : inClass c = false) : c ∈ (trim inClass text).toList := by
  unfold trim dropTail
  rw [String.toList_ofList, List.mem_reverse]
  apply mem_dropWhile _ outside
  rw [List.mem_reverse]
  exact mem_dropWhile member outside

theorem mem_of_mem_trim {inClass : Char → Bool} {c : Char} {text : String}
    (member : c ∈ (trim inClass text).toList) : c ∈ text.toList := by
  rw [trim, String.toList_ofList] at member
  have isInner := dropTail_prefix inClass (text.toList.dropWhile inClass)
  exact (List.dropWhile_suffix inClass).subset (isInner.subset member)

theorem trimmed_trim (inClass : Char → Bool) (text : String) :
    Trimmed inClass (trim inClass text).toList := by
  unfold trim
  rw [String.toList_ofList]
  exact trimmed_dropTail_dropWhile text.toList

theorem trim_eq_self {inClass : Char → Bool} {text : String}
    (trimmed : Trimmed inClass text.toList) : trim inClass text = text := by
  unfold trim
  rw [dropWhile_eq_self trimmed.1, dropTail_eq_self trimmed.2, String.ofList_toList]

/-- What stands between runs of the class is left. -/
theorem trim_padded {inClass : Char → Bool} {before middle after : List Char}
    (leads : ∀ c ∈ before, inClass c = true) (trimmed : Trimmed inClass middle)
    (trails : ∀ c ∈ after, inClass c = true) :
    trim inClass (String.ofList (before ++ middle ++ after)) = String.ofList middle := by
  have trailing : after.dropWhile inClass = [] := by
    rw [← List.append_nil after, List.dropWhile_append_of_pos trails, List.dropWhile_nil]
  have started : (before ++ middle ++ after).dropWhile inClass =
      (middle ++ after).dropWhile inClass := by
    rw [List.append_assoc, List.dropWhile_append_of_pos leads]
  unfold trim
  rw [String.toList_ofList, started]
  cases middle with
  | nil =>
      rw [List.nil_append, trailing]
      rfl
  | cons first rest =>
      have starts : ((first :: rest) ++ after).dropWhile inClass = (first :: rest) ++ after :=
        dropWhile_eq_self (fun other isFirst => trimmed.1 other isFirst)
      have ends : dropTail inClass ((first :: rest) ++ after) =
          dropTail inClass (first :: rest) := by
        unfold dropTail
        rw [List.reverse_append, List.dropWhile_append_of_pos]
        intro c member
        exact trails c (List.mem_reverse.mp member)
      rw [starts, ends, dropTail_eq_self trimmed.2]

@[simp] theorem trim_trim (inClass : Char → Bool) (text : String) :
    trim inClass (trim inClass text) = trim inClass text :=
  trim_eq_self (trimmed_trim inClass text)

theorem isBlank_of_between {c : Char} (low : 65 ≤ c.toNat) (high : c.toNat ≤ 122) :
    isBlank c = false := by
  simp only [isBlank, Bool.or_eq_false_iff, Bool.and_eq_false_iff, decide_eq_false_iff_not,
    beq_eq_false_iff_ne]
  omega

/-- Folding keeps white space and makes none. -/
theorem isBlank_toLower (c : Char) : isBlank c.toLower = isBlank c := by
  rcases toLower_cases c with same | ⟨low, high, moved⟩
  · rw [same]
  · rw [isBlank_of_between low (by omega), isBlank_of_between (by omega) (by omega)]

end FactoryProxy.Text

namespace FactoryProxy.Name

@[simp] theorem trimSeparators_trimSeparators (name : String) :
    trimSeparators (trimSeparators name) = trimSeparators name :=
  Text.trim_trim isSeparator name

@[simp] theorem lookupKey_trimSeparators (name : String) :
    lookupKey (trimSeparators name) = lookupKey name := by
  unfold lookupKey
  rw [trimSeparators_trimSeparators]

theorem isSeparator_of_isBlank {c : Char} (blank : Text.isBlank c = true) :
    isSeparator c = false := by
  by_cases same : c = separator
  · rw [same] at blank
    exact absurd blank (by decide)
  · simpa [isSeparator] using same

/-- A name whose key has no outer white space has none itself. -/
theorem trimBlank_of_lookupKey {name : String}
    (trimmed : Text.trimBlank (lookupKey name) = lookupKey name) :
    Text.trimBlank name = name := by
  have keyTrimmed : Text.Trimmed Text.isBlank (lookupKey name).toList := by
    rw [← trimmed]
    exact Text.trimmed_trim Text.isBlank _
  have isKey : (lookupKey name).toList =
      (Text.dropTail isSeparator (name.toList.dropWhile isSeparator)).map Char.toLower := by
    simp [lookupKey, trimSeparators, Text.trim]
  rw [isKey] at keyTrimmed
  apply Text.trim_eq_self
  constructor
  · intro first isFirst
    apply Bool.eq_false_iff.mpr
    intro blank
    have outside := isSeparator_of_isBlank blank
    cases characters : name.toList with
    | nil => simp [characters] at isFirst
    | cons head tail =>
        rw [characters] at isFirst keyTrimmed
        obtain rfl : head = first := by simpa using isFirst
        rw [List.dropWhile_cons_of_neg (Bool.eq_false_iff.mp outside),
          Text.dropTail_cons tail outside] at keyTrimmed
        have notBlank := keyTrimmed.1 head.toLower rfl
        rw [Text.isBlank_toLower, blank] at notBlank
        cases notBlank
  · intro last isLast
    apply Bool.eq_false_iff.mpr
    intro blank
    have outside := isSeparator_of_isBlank blank
    obtain ⟨before, isWhole⟩ := List.getLast?_eq_some_iff.mp isLast
    have keepsLast : (name.toList.dropWhile isSeparator).getLast? = some last := by
      rw [isWhole, List.dropWhile_append]
      split
      · rw [List.dropWhile_cons_of_neg (Bool.eq_false_iff.mp outside)]
        rfl
      · rw [List.getLast?_append]
        rfl
    have unchanged : Text.dropTail isSeparator (name.toList.dropWhile isSeparator) =
        name.toList.dropWhile isSeparator := by
      apply Text.dropTail_eq_self
      intro other isOther
      rw [keepsLast] at isOther
      rw [← Option.some.inj isOther]
      exact outside
    rw [unchanged] at keyTrimmed
    have notBlank := keyTrimmed.2 last.toLower (by rw [List.getLast?_map, keepsLast]; rfl)
    rw [Text.isBlank_toLower, blank] at notBlank
    cases notBlank

/-- The full text of an outside type has the key of its name. -/
theorem lookupKey_trimBlank {name : String}
    (trimmed : Text.trimBlank (lookupKey name) = lookupKey name) :
    lookupKey (trimSeparators (Text.trimBlank name)) = lookupKey name := by
  rw [trimBlank_of_lookupKey trimmed, lookupKey_trimSeparators]

end FactoryProxy.Name
