import FactoryProxy.Proofs.Json.Text

/-!
Contract: values are read back from their text.

The two forms of a text differ in the white space around elements and behind colons.
A `Layout` is a choice of that white space, and a value is read back from its text in
every layout. Numbers are left out: no text of this library holds any.

Owns: layouts, the reading of a laid out value, and what two equal texts say about
their values.
-/

namespace FactoryProxy.Json

/-! ## White space -/

/-- White space in front of elements at a level, and behind colons. -/
structure Layout where
  gap : Nat → List Char
  behindColon : List Char
  gapIsSpace : ∀ level, ∀ c ∈ gap level, isSpace c = true
  colonIsSpace : ∀ c ∈ behindColon, isSpace c = true

namespace Layout

/-- No white space. -/
def dense : Layout where
  gap _ := []
  behindColon := []
  gapIsSpace := by simp
  colonIsSpace := by simp

/-- Every element on its line. -/
def lines : Layout where
  gap := Value.newLine
  behindColon := [' ']
  gapIsSpace := by
    intro level c member
    rcases List.mem_cons.mp member with isBreak | inIndentation
    · rw [isBreak]
      decide
    · rw [List.eq_of_mem_replicate inIndentation]
      decide
  colonIsSpace := List.forall_mem_singleton.mpr (by decide)

end Layout

theorem skipSpace_append {space : List Char} (isBlank : ∀ c ∈ space, isSpace c = true)
    (characters : List Char) : skipSpace (space ++ characters) = skipSpace characters :=
  List.dropWhile_append_of_pos isBlank

theorem skipSpace_cons {c : Char} (notSpace : isSpace c = false) (characters : List Char) :
    skipSpace (c :: characters) = c :: characters :=
  List.dropWhile_cons_of_neg (Bool.eq_false_iff.mp notSpace)

theorem skipSpace_skipSpace (characters : List Char) :
    skipSpace (skipSpace characters) = skipSpace characters := by
  unfold skipSpace
  induction characters with
  | nil => rfl
  | cons head tail inductionHypothesis =>
      by_cases isBlank : isSpace head = true
      · rw [List.dropWhile_cons_of_pos isBlank]
        exact inductionHypothesis
      · rw [List.dropWhile_cons_of_neg isBlank, List.dropWhile_cons_of_neg isBlank]

/-- Readers of values look only at what stands behind white space. -/
theorem value?_congr {left right : List Char} (same : skipSpace left = skipSpace right)
    (depth : Nat) : value? depth left = value? depth right := by
  cases depth with
  | zero => simp only [value?]
  | succ depth => rw [value?, value?, same]

theorem elements?_congr {left right : List Char} (same : skipSpace left = skipSpace right)
    (depth : Nat) : elements? depth left = elements? depth right := by
  cases depth with
  | zero => simp only [elements?]
  | succ depth => rw [elements?, elements?, value?_congr same]

theorem member?_congr {left right : List Char} (same : skipSpace left = skipSpace right)
    (depth : Nat) : member? depth left = member? depth right := by
  cases depth with
  | zero => simp only [member?]
  | succ depth => rw [member?, member?, same]

theorem members?_congr {left right : List Char} (same : skipSpace left = skipSpace right)
    (depth : Nat) : members? depth left = members? depth right := by
  cases depth with
  | zero => simp only [members?]
  | succ depth => rw [members?, members?, member?_congr same]

namespace Value

/-! ## Laid out values -/

mutual

/-- The text of a value at a level. -/
def laid (layout : Layout) (level : Nat) : Value → List Char
  | list (first :: rest) =>
    '[' :: laidElements layout (level + 1) (first :: rest) ++ layout.gap level ++ [']']
  | object (first :: rest) =>
    '\x7b' :: laidMembers layout (level + 1) (first :: rest) ++ layout.gap level ++ ['\x7d']
  | list [] => ['[', ']']
  | object [] => ['\x7b', '\x7d']
  | null => "null".toList
  | boolean value => booleanText value
  | number digits => digits.toList
  | text content => quoted content
  | broken => quoted ""

/-- Elements with a comma between neighbours. -/
def laidElements (layout : Layout) (level : Nat) : List Value → List Char
  | [] => []
  | [element] => layout.gap level ++ element.laid layout level
  | element :: rest =>
    layout.gap level ++ element.laid layout level ++ ',' :: laidElements layout level rest

/-- Members with a comma between neighbours. -/
def laidMembers (layout : Layout) (level : Nat) : List (String × Value) → List Char
  | [] => []
  | [(key, value)] =>
    layout.gap level ++ quoted key ++ ':' :: layout.behindColon ++ value.laid layout level
  | (key, value) :: rest =>
    layout.gap level ++ quoted key ++ ':' :: layout.behindColon ++ value.laid layout level ++
      ',' :: laidMembers layout level rest

end

mutual

theorem laid_dense (level : Nat) : ∀ value : Value, value.laid .dense level = value.compact
  | list (first :: rest) => by
      rw [laid, compact, laidElements_dense]
      simp [Layout.dense]
  | object (first :: rest) => by
      rw [laid, compact, laidMembers_dense]
      simp [Layout.dense]
  | list [] => rfl
  | object [] => rfl
  | null => rfl
  | boolean _ => rfl
  | number _ => rfl
  | text _ => rfl
  | broken => rfl

theorem laidElements_dense (level : Nat) :
    ∀ elements : List Value, laidElements .dense level elements = compactElements elements
  | [] => rfl
  | [element] => by
      rw [laidElements, compactElements, laid_dense]
      rfl
  | element :: next :: rest => by
      rw [laidElements, compactElements, laid_dense, laidElements_dense]
      · rfl
      all_goals simp

theorem laidMembers_dense (level : Nat) :
    ∀ members : List (String × Value), laidMembers .dense level members = compactMembers members
  | [] => rfl
  | [(key, value)] => by
      rw [laidMembers, compactMembers, laid_dense]
      simp [Layout.dense]
  | (key, value) :: next :: rest => by
      rw [laidMembers, compactMembers, laid_dense, laidMembers_dense]
      · simp [Layout.dense]
      all_goals simp

end

mutual

theorem laid_lines (level : Nat) : ∀ value : Value, value.laid .lines level = value.indented level
  | list (first :: rest) => by
      rw [laid, indented, laidElements_lines]
      rfl
  | object (first :: rest) => by
      rw [laid, indented, laidMembers_lines]
      rfl
  | list [] => rfl
  | object [] => rfl
  | null => rfl
  | boolean _ => rfl
  | number _ => rfl
  | text _ => rfl
  | broken => rfl

theorem laidElements_lines (level : Nat) :
    ∀ elements : List Value, laidElements .lines level elements = indentedElements level elements
  | [] => rfl
  | [element] => by
      rw [laidElements, indentedElements, laid_lines]
      rfl
  | element :: next :: rest => by
      rw [laidElements, indentedElements, laid_lines, laidElements_lines]
      · rfl
      all_goals simp

theorem laidMembers_lines (level : Nat) :
    ∀ members : List (String × Value),
      laidMembers .lines level members = indentedMembers level members
  | [] => rfl
  | [(key, value)] => by
      rw [laidMembers, indentedMembers, laid_lines]
      simp [Layout.lines]
  | (key, value) :: next :: rest => by
      rw [laidMembers, indentedMembers, laid_lines, laidMembers_lines]
      · simp [Layout.lines]
      all_goals simp

end

/-! ## Plain values -/

mutual

/-- The value holds no numbers, and all its texts stand for characters. -/
def isPlain : Value → Bool
  | number _ => false
  | broken => false
  | list elements => arePlain elements
  | object members => membersArePlain members
  | _ => true

def arePlain : List Value → Bool
  | [] => true
  | element :: rest => element.isPlain && arePlain rest

def membersArePlain : List (String × Value) → Bool
  | [] => true
  | (_, value) :: rest => value.isPlain && membersArePlain rest

end

theorem arePlain_map {α : Type} {make : α → Value} (elements : List α)
    (plain : ∀ element, (make element).isPlain = true) : arePlain (elements.map make) = true := by
  induction elements with
  | nil => rfl
  | cons head tail inductionHypothesis =>
      rw [List.map_cons, arePlain, plain head, inductionHypothesis]
      rfl

theorem membersArePlain_map {α : Type} {make : α → String × Value} (elements : List α)
    (plain : ∀ element, (make element).2.isPlain = true) :
    membersArePlain (elements.map make) = true := by
  induction elements with
  | nil => rfl
  | cons head tail inductionHypothesis =>
      rw [List.map_cons, membersArePlain, plain head, inductionHypothesis]
      rfl

/-- A laid out value starts with no white space and no closing bracket. -/
theorem exists_head_laid (layout : Layout) (level : Nat) {value : Value}
    (plain : value.isPlain = true) :
    ∃ first rest, value.laid layout level = first :: rest ∧ isSpace first = false ∧
      first ≠ ']' := by
  cases value with
  | null => exact ⟨'n', "ull".toList, rfl, by decide, by decide⟩
  | boolean value =>
      cases value with
      | true => exact ⟨'t', "rue".toList, rfl, by decide, by decide⟩
      | false => exact ⟨'f', "alse".toList, rfl, by decide, by decide⟩
  | number digits => cases plain
  | text content => exact ⟨'"', _, rfl, by decide, by decide⟩
  | broken => cases plain
  | list elements =>
      cases elements with
      | nil => exact ⟨'[', [']'], rfl, by decide, by decide⟩
      | cons first rest => exact ⟨'[', _, rfl, by decide, by decide⟩
  | object members =>
      cases members with
      | nil => exact ⟨'\x7b', ['\x7d'], rfl, by decide, by decide⟩
      | cons first rest => exact ⟨'\x7b', _, rfl, by decide, by decide⟩

theorem length_laid_pos (layout : Layout) (level : Nat) {value : Value}
    (plain : value.isPlain = true) : 0 < (value.laid layout level).length := by
  obtain ⟨first, rest, isLaid, _⟩ := exists_head_laid layout level plain
  rw [isLaid]
  exact Nat.succ_pos rest.length

/-- The text of elements starts with white space and the first element. -/
theorem laidElements_cons (layout : Layout) (level : Nat) (element : Value) (rest : List Value) :
    ∃ more, laidElements layout level (element :: rest) =
      layout.gap level ++ (element.laid layout level ++ more) := by
  cases rest with
  | nil => exact ⟨[], by simp [laidElements]⟩
  | cons next others =>
      exact ⟨',' :: laidElements layout level (next :: others), by simp [laidElements]⟩

/-- The text of members starts with white space and a quote. -/
theorem laidMembers_cons (layout : Layout) (level : Nat) (member : String × Value)
    (rest : List (String × Value)) :
    ∃ more, laidMembers layout level (member :: rest) = layout.gap level ++ '"' :: more := by
  obtain ⟨key, value⟩ := member
  cases rest with
  | nil => exact ⟨_, by simp [laidMembers, quoted]; rfl⟩
  | cons next others => exact ⟨_, by simp [laidMembers, quoted]; rfl⟩

/-- Elements start with no closing bracket. -/
theorem exists_head_laidElements (layout : Layout) (level : Nat) {element : Value}
    (rest : List Value) (plain : element.isPlain = true) (behind : List Char) :
    ∃ first tail, skipSpace (laidElements layout level (element :: rest) ++ behind) =
      first :: tail ∧ first ≠ ']' := by
  obtain ⟨first, tail, isLaid, notSpace, isOpen⟩ := exists_head_laid layout level plain
  obtain ⟨more, isWhole⟩ := laidElements_cons layout level element rest
  refine ⟨first, tail ++ more ++ behind, ?_, isOpen⟩
  rw [isWhole, List.append_assoc, skipSpace_append (layout.gapIsSpace level), isLaid,
    List.cons_append, List.cons_append]
  exact skipSpace_cons notSpace _

/-- Members start with a quote. -/
theorem exists_head_laidMembers (layout : Layout) (level : Nat) (member : String × Value)
    (rest : List (String × Value)) (behind : List Char) :
    ∃ tail, skipSpace (laidMembers layout level (member :: rest) ++ behind) = '"' :: tail := by
  obtain ⟨more, isWhole⟩ := laidMembers_cons layout level member rest
  refine ⟨more ++ behind, ?_⟩
  rw [isWhole, List.append_assoc, skipSpace_append (layout.gapIsSpace level), List.cons_append]
  exact skipSpace_cons (by decide) _

theorem objectOf_map (members : List (String × Value)) :
    objectOf (members.map (fun member => (some member.1, member.2))) = object members := by
  unfold objectOf
  have readBack : (members.map (fun member => (some member.1, member.2))).mapM
      (fun member : Option String × Value => member.1.map (fun key => (key, member.2))) =
        some members := by
    induction members with
    | nil => rfl
    | cons head tail inductionHypothesis =>
        rw [List.map_cons, List.mapM_cons, inductionHypothesis]
        rfl
  rw [readBack]

end Value

/-! ## Reading -/

open Value (isPlain arePlain membersArePlain laid laidElements laidMembers)

theorem value?_quoted (depth : Nat) (content : String) (behind : List Char) :
    value? (depth + 1) (quoted content ++ behind) = some (.text content, behind) := by
  have whole : quoted content ++ behind =
      '"' :: (content.toList.flatMap escaped ++ '"' :: behind) := by
    simp [quoted]
  rw [whole, value?, skipSpace_cons (by decide)]
  simp only [text?_quoted]
  rfl

/-- A bracket and elements behind it are a list. -/
theorem value?_list {depth : Nat} {inner behind rest : List Char} {elements : List Value}
    {first : Char} (starts : skipSpace inner = first :: rest) (isOpen : first ≠ ']')
    (reads : elements? depth inner = some (elements, behind)) :
    value? (depth + 1) ('[' :: inner) = some (.list elements, behind) := by
  have same : skipSpace (first :: rest) = skipSpace inner := by
    rw [← starts, skipSpace_skipSpace]
  rw [value?, skipSpace_cons (by decide)]
  simp only [starts]
  split
  · rename_i closed
    exact absurd (List.cons.inj closed).1 isOpen
  · rw [elements?_congr same, reads]
    rfl

/-- A brace and members behind it are an object. -/
theorem value?_object {depth : Nat} {inner behind rest : List Char}
    {members : List (Option String × Value)} {first : Char}
    (starts : skipSpace inner = first :: rest) (isOpen : first ≠ '\x7d')
    (reads : members? depth inner = some (members, behind)) :
    value? (depth + 1) ('\x7b' :: inner) = some (objectOf members, behind) := by
  have same : skipSpace (first :: rest) = skipSpace inner := by
    rw [← starts, skipSpace_skipSpace]
  rw [value?, skipSpace_cons (by decide)]
  simp only [starts]
  split
  · rename_i closed
    exact absurd (List.cons.inj closed).1 isOpen
  · rw [members?_congr same, reads]
    rfl

theorem elements?_last {depth : Nat} {characters closing behind : List Char} {element : Value}
    (reads : value? depth characters = some (element, closing))
    (closes : skipSpace closing = ']' :: behind) :
    elements? (depth + 1) characters = some ([element], behind) := by
  rw [elements?, reads]
  simp only [Option.bind_eq_bind, Option.bind_some, closes]
  rfl

theorem elements?_cons {depth : Nat} {characters others behind : List Char} {element : Value}
    {rest : List Value} (reads : value? depth characters = some (element, ',' :: others))
    (readsRest : elements? depth others = some (rest, behind)) :
    elements? (depth + 1) characters = some (element :: rest, behind) := by
  have isComma : skipSpace (',' :: others) = ',' :: others := skipSpace_cons (by decide) others
  rw [elements?, reads]
  simp only [Option.bind_eq_bind, Option.bind_some, isComma, readsRest]
  rfl

theorem members?_last {depth : Nat} {characters closing behind : List Char}
    {member : Option String × Value}
    (reads : member? depth characters = some (member, closing))
    (closes : skipSpace closing = '\x7d' :: behind) :
    members? (depth + 1) characters = some ([member], behind) := by
  rw [members?, reads]
  simp only [Option.bind_eq_bind, Option.bind_some, closes]
  rfl

theorem members?_cons {depth : Nat} {characters others behind : List Char}
    {member : Option String × Value} {rest : List (Option String × Value)}
    (reads : member? depth characters = some (member, ',' :: others))
    (readsRest : members? depth others = some (rest, behind)) :
    members? (depth + 1) characters = some (member :: rest, behind) := by
  have isComma : skipSpace (',' :: others) = ',' :: others := skipSpace_cons (by decide) others
  rw [members?, reads]
  simp only [Option.bind_eq_bind, Option.bind_some, isComma, readsRest]
  rfl

theorem member?_quoted {depth : Nat} {key : String} {value : Value}
    {space characters behind : List Char} (isBlank : ∀ c ∈ space, isSpace c = true)
    (reads : value? depth characters = some (value, behind)) :
    member? (depth + 1) (quoted key ++ ':' :: (space ++ characters)) =
      some ((some key, value), behind) := by
  have whole : quoted key ++ ':' :: (space ++ characters) =
      '"' :: (key.toList.flatMap escaped ++ '"' :: ':' :: (space ++ characters)) := by
    simp [quoted]
  have readsBehindSpace : value? depth (space ++ characters) = some (value, behind) := by
    rw [value?_congr (skipSpace_append isBlank characters)]
    exact reads
  have isColon : skipSpace (':' :: (space ++ characters)) = ':' :: (space ++ characters) :=
    skipSpace_cons (by decide) _
  rw [whole, member?, skipSpace_cons (by decide)]
  simp only [Option.bind_eq_bind, text?_quoted, Option.bind_some, isColon, readsBehindSpace]
  rfl

theorem value?_word {depth : Nat} {behind : List Char} :
    value? (depth + 1) ("null".toList ++ behind) = some (.null, behind) ∧
      ∀ value, value? (depth + 1) (booleanText value ++ behind) =
        some (.boolean value, behind) := by
  constructor
  · rfl
  · intro value
    cases value with
    | true => rfl
    | false => rfl

mutual

/-- A value is read back from its text, whatever follows. -/
theorem value?_laid (layout : Layout) : ∀ (value : Value) (level depth : Nat)
    (behind : List Char), value.isPlain = true →
      2 * (value.laid layout level).length ≤ depth + 1 →
        value? (depth + 1) (value.laid layout level ++ behind) = some (value, behind)
  | .null, _, _, _, _, _ => value?_word.1
  | .boolean value, _, _, _, _, _ => value?_word.2 value
  | .number _, _, _, _, plain, _ => by cases plain
  | .broken, _, _, _, plain, _ => by cases plain
  | .text content, _, depth, behind, _, _ => value?_quoted depth content behind
  | .list [], _, _, _, _, _ => rfl
  | .object [], _, _, _, _, _ => rfl
  | .list (first :: rest), level, depth, behind, plain, deep => by
      have plainFirst : first.isPlain = true := (Bool.and_eq_true_iff.mp plain).1
      have closes : skipSpace (layout.gap level ++ ']' :: behind) = ']' :: behind := by
        rw [skipSpace_append (layout.gapIsSpace level), skipSpace_cons (by decide)]
      have enough : 2 * (laidElements layout (level + 1) (first :: rest)).length + 1 ≤ depth := by
        simp only [laid, List.length_cons, List.length_append, List.length_nil] at deep
        omega
      have reads := elements?_laid layout (first :: rest) (level + 1) depth
        (layout.gap level ++ ']' :: behind) behind (List.cons_ne_nil first rest) plain closes enough
      obtain ⟨head, tail, starts, isOpen⟩ :=
        Value.exists_head_laidElements layout (level + 1) rest plainFirst
          (layout.gap level ++ ']' :: behind)
      have whole : (Value.list (first :: rest)).laid layout level ++ behind =
          '[' :: (laidElements layout (level + 1) (first :: rest) ++
            (layout.gap level ++ ']' :: behind)) := by
        simp [laid]
      rw [whole]
      exact value?_list starts isOpen reads
  | .object (first :: rest), level, depth, behind, plain, deep => by
      have closes : skipSpace (layout.gap level ++ '\x7d' :: behind) = '\x7d' :: behind := by
        rw [skipSpace_append (layout.gapIsSpace level), skipSpace_cons (by decide)]
      have enough : 2 * (laidMembers layout (level + 1) (first :: rest)).length + 1 ≤ depth := by
        simp only [laid, List.length_cons, List.length_append, List.length_nil] at deep
        omega
      have reads := members?_laid layout (first :: rest) (level + 1) depth
        (layout.gap level ++ '\x7d' :: behind) behind (List.cons_ne_nil first rest) plain closes
        enough
      obtain ⟨tail, starts⟩ := Value.exists_head_laidMembers layout (level + 1) first rest
        (layout.gap level ++ '\x7d' :: behind)
      have whole : (Value.object (first :: rest)).laid layout level ++ behind =
          '\x7b' :: (laidMembers layout (level + 1) (first :: rest) ++
            (layout.gap level ++ '\x7d' :: behind)) := by
        simp [laid]
      rw [whole, value?_object starts (by decide) reads, Value.objectOf_map]

theorem elements?_laid (layout : Layout) : ∀ (elements : List Value) (level depth : Nat)
    (closing behind : List Char), elements ≠ [] → arePlain elements = true →
      skipSpace closing = ']' :: behind →
        2 * (laidElements layout level elements).length + 1 ≤ depth →
          elements? depth (laidElements layout level elements ++ closing) =
            some (elements, behind)
  | [], _, _, _, _, isEmpty, _, _, _ => absurd rfl isEmpty
  | [element], level, depth, closing, behind, _, plain, closes, deep => by
      have plainElement : element.isPlain = true := (Bool.and_eq_true_iff.mp plain).1
      have positive := Value.length_laid_pos layout level plainElement
      simp only [laidElements, List.length_append] at deep
      obtain ⟨below, rfl⟩ : ∃ below, depth = below + 1 + 1 := ⟨depth - 2, by omega⟩
      have reads := value?_laid layout element level below closing plainElement (by omega)
      rw [laidElements, List.append_assoc]
      apply elements?_last _ closes
      rw [value?_congr (skipSpace_append (layout.gapIsSpace level) _)]
      exact reads
  | element :: next :: rest, level, depth, closing, behind, _, plain, closes, deep => by
      obtain ⟨plainElement, plainRest⟩ := Bool.and_eq_true_iff.mp plain
      have positive := Value.length_laid_pos layout level plainElement
      simp only [laidElements, List.length_append, List.length_cons] at deep
      obtain ⟨below, rfl⟩ : ∃ below, depth = below + 1 + 1 := ⟨depth - 2, by omega⟩
      have reads := value?_laid layout element level below
        (',' :: (laidElements layout level (next :: rest) ++ closing)) plainElement (by omega)
      have readsRest := elements?_laid layout (next :: rest) level (below + 1) closing behind
        (List.cons_ne_nil next rest) plainRest closes (by omega)
      have whole : laidElements layout level (element :: next :: rest) ++ closing =
          layout.gap level ++ (element.laid layout level ++
            ',' :: (laidElements layout level (next :: rest) ++ closing)) := by
        simp [laidElements]
      rw [whole]
      apply elements?_cons _ readsRest
      rw [value?_congr (skipSpace_append (layout.gapIsSpace level) _)]
      exact reads

theorem members?_laid (layout : Layout) : ∀ (members : List (String × Value)) (level depth : Nat)
    (closing behind : List Char), members ≠ [] → membersArePlain members = true →
      skipSpace closing = '\x7d' :: behind →
        2 * (laidMembers layout level members).length + 1 ≤ depth →
          members? depth (laidMembers layout level members ++ closing) =
            some (members.map (fun member => (some member.1, member.2)), behind)
  | [], _, _, _, _, isEmpty, _, _, _ => absurd rfl isEmpty
  | [(key, value)], level, depth, closing, behind, _, plain, closes, deep => by
      have plainValue : value.isPlain = true := (Bool.and_eq_true_iff.mp plain).1
      have positive := Value.length_laid_pos layout level plainValue
      simp only [laidMembers, List.length_append, List.length_cons] at deep
      obtain ⟨below, rfl⟩ : ∃ below, depth = below + 1 + 1 + 1 := ⟨depth - 3, by omega⟩
      have reads := value?_laid layout value level below closing plainValue (by omega)
      have whole : laidMembers layout level [(key, value)] ++ closing =
          layout.gap level ++ (quoted key ++
            ':' :: (layout.behindColon ++ (value.laid layout level ++ closing))) := by
        simp [laidMembers]
      rw [whole]
      apply members?_last _ closes
      rw [member?_congr (skipSpace_append (layout.gapIsSpace level) _)]
      exact member?_quoted layout.colonIsSpace reads
  | (key, value) :: next :: rest, level, depth, closing, behind, _, plain, closes, deep => by
      obtain ⟨plainValue, plainRest⟩ := Bool.and_eq_true_iff.mp plain
      have positive := Value.length_laid_pos layout level plainValue
      simp only [laidMembers, List.length_append, List.length_cons] at deep
      obtain ⟨below, rfl⟩ : ∃ below, depth = below + 1 + 1 + 1 := ⟨depth - 3, by omega⟩
      have reads := value?_laid layout value level below
        (',' :: (laidMembers layout level (next :: rest) ++ closing)) plainValue (by omega)
      have readsRest := members?_laid layout (next :: rest) level (below + 1 + 1) closing behind
        (List.cons_ne_nil next rest) plainRest closes (by omega)
      have whole : laidMembers layout level ((key, value) :: next :: rest) ++ closing =
          layout.gap level ++ (quoted key ++ ':' :: (layout.behindColon ++
            (value.laid layout level ++
              ',' :: (laidMembers layout level (next :: rest) ++ closing)))) := by
        simp [laidMembers]
      rw [whole]
      apply members?_cons _ readsRest
      rw [member?_congr (skipSpace_append (layout.gapIsSpace level) _)]
      exact member?_quoted layout.colonIsSpace reads

end

/-! ## Whole texts -/

/-- A plain value is the one that its text in any layout writes. -/
theorem parse?_laid (layout : Layout) {value : Value} (plain : value.isPlain = true) :
    parse? (String.ofList (value.laid layout 0)) = some value := by
  have deep : 2 * (value.laid layout 0).length ≤ 2 * (value.laid layout 0).length + 1 + 1 := by
    omega
  have reads := value?_laid layout value 0 _ [] plain deep
  rw [List.append_nil] at reads
  unfold parse?
  simp only [String.toList_ofList, reads, Option.bind_eq_bind, Option.bind_some]
  rfl

theorem parse?_indentedText {value : Value} (plain : value.isPlain = true) :
    parse? value.indentedText = some value := by
  unfold Value.indentedText
  rw [← Value.laid_lines]
  exact parse?_laid .lines plain

theorem parse?_compactText {value : Value} (plain : value.isPlain = true) :
    parse? value.compactText = some value := by
  unfold Value.compactText
  rw [← Value.laid_dense 0]
  exact parse?_laid .dense plain

/-- Plain values with one compact text are equal. -/
theorem compactText_injective {left right : Value} (leftPlain : left.isPlain = true)
    (rightPlain : right.isPlain = true) (same : left.compactText = right.compactText) :
    left = right := by
  have readsLeft := parse?_compactText leftPlain
  rw [same, parse?_compactText rightPlain] at readsLeft
  exact (Option.some.inj readsLeft).symm

end FactoryProxy.Json
