import FactoryProxy.Proofs.Text.Pieces
import FactoryProxy.Proofs.Text.Trimming
import FactoryProxy.TypeHint.Builtin

/-!
Contract: types as expressions over names, against the texts that write them.

The test on a hint never reads an expression: it cuts the text at the joining characters
and drops what is empty. Whatever the layout, the cut of a written expression gives its
names in their order, so the test speaks about the expression.

Owns: type expressions, their names, their writings, and the names that a writing is cut
into.
-/

namespace FactoryProxy.TypeHint

/-! ## Type expressions -/

/-- A name in a type: not empty, without joining characters and white space. -/
structure TypeName where
  text : String
  isNonempty : text.toList ≠ []
  isFree : ∀ c ∈ text.toList, isJoint c = false ∧ Text.isBlank c = false

theorem free_of_all {text : String}
    (isFree : text.toList.all (fun c => !isJoint c && !Text.isBlank c) = true) :
    ∀ c ∈ text.toList, isJoint c = false ∧ Text.isBlank c = false := by
  intro c member
  simpa using List.all_eq_true.mp isFree c member

inductive TypeExpression where
  | named (name : TypeName)
  | nullable (inner : TypeExpression)
  | union (left right : TypeExpression)
  | intersection (left right : TypeExpression)
  | grouped (inner : TypeExpression)

namespace TypeExpression

/-- The names of an expression from left to right. -/
def names : TypeExpression → List TypeName
  | .named name => [name]
  | .nullable inner => inner.names
  | .union left right => left.names ++ right.names
  | .intersection left right => left.names ++ right.names
  | .grouped inner => inner.names

theorem names_ne_nil (expression : TypeExpression) : expression.names ≠ [] := by
  induction expression with
  | named name => exact List.cons_ne_nil _ _
  | nullable inner inductionHypothesis => exact inductionHypothesis
  | union left right inductionHypothesis => simp [names, inductionHypothesis]
  | intersection left right inductionHypothesis => simp [names, inductionHypothesis]
  | grouped inner inductionHypothesis => exact inductionHypothesis

/-- A text of white space. -/
def IsGap (characters : List Char) : Prop :=
  ∀ c ∈ characters, Text.isBlank c = true

/-- The characters write the expression, with white space before and behind every name and
every joining character. -/
inductive Written : TypeExpression → List Char → Prop where
  | named (name : TypeName) {before after : List Char} (leads : IsGap before)
      (trails : IsGap after) : Written (.named name) (before ++ name.text.toList ++ after)
  | nullable {inner : TypeExpression} {before characters : List Char} (leads : IsGap before)
      (written : Written inner characters) : Written (.nullable inner) (before ++ '?' :: characters)
  | union {left right : TypeExpression} {first second : List Char} (isLeft : Written left first)
      (isRight : Written right second) : Written (.union left right) (first ++ '|' :: second)
  | intersection {left right : TypeExpression} {first second : List Char}
      (isLeft : Written left first) (isRight : Written right second) :
      Written (.intersection left right) (first ++ '&' :: second)
  | grouped {inner : TypeExpression} {before characters after : List Char} (leads : IsGap before)
      (written : Written inner characters) (trails : IsGap after) :
      Written (.grouped inner) (before ++ '(' :: (characters ++ ')' :: after))

end TypeExpression

open TypeExpression (IsGap Written)

/-! ## The cut of a text -/

theorem isJoint_of_isBlank {c : Char} (blank : Text.isBlank c = true) : isJoint c = false := by
  apply Bool.eq_false_iff.mpr
  intro joint
  simp only [isJoint, Bool.or_eq_true, beq_iff_eq] at joint
  obtain (((rfl | rfl) | rfl) | rfl) | rfl := joint
  all_goals exact absurd blank (by decide)

/-- A joining character separates the names before it from those behind it. -/
theorem atoms_append {joint : Char} (joins : isJoint joint = true) (before after : List Char) :
    atoms (String.ofList (before ++ joint :: after)) =
      atoms (String.ofList before) ++ atoms (String.ofList after) := by
  simp only [atoms, Text.splitBy, String.toList_ofList, Text.pieces_append joins, List.map_append,
    List.filter_append]

/-- Without joining characters there is one name, or none if nothing but white space is left. -/
theorem atoms_of_free {characters : List Char} (free : ∀ c ∈ characters, isJoint c = false) :
    atoms (String.ofList characters) =
      [Text.trimBlank (String.ofList characters)].filter (fun atom => !atom.isEmpty) := by
  simp only [atoms, Text.splitBy, String.toList_ofList, Text.pieces_of_free free, List.map_cons,
    List.map_nil]

theorem atoms_of_isGap {characters : List Char} (gap : IsGap characters) :
    atoms (String.ofList characters) = [] := by
  have nothing : Text.trimBlank (String.ofList (characters ++ [] ++ [])) = "" :=
    Text.trim_padded gap ⟨by simp, by simp⟩ (by simp)
  rw [List.append_nil, List.append_nil] at nothing
  rw [atoms_of_free (fun c member => isJoint_of_isBlank (gap c member)), nothing]
  rfl

theorem trimmed_name (name : TypeName) : Text.Trimmed Text.isBlank name.text.toList :=
  ⟨fun first isFirst => (name.isFree first (List.mem_of_mem_head? isFirst)).2,
    fun last isLast => (name.isFree last (List.mem_of_mem_getLast? isLast)).2⟩

theorem atoms_of_name (name : TypeName) {before after : List Char} (leads : IsGap before)
    (trails : IsGap after) :
    atoms (String.ofList (before ++ name.text.toList ++ after)) = [name.text] := by
  have free : ∀ c ∈ before ++ name.text.toList ++ after, isJoint c = false := by
    intro c member
    simp only [List.mem_append] at member
    rcases member with (isBefore | inName) | isAfter
    · exact isJoint_of_isBlank (leads c isBefore)
    · exact (name.isFree c inName).1
    · exact isJoint_of_isBlank (trails c isAfter)
  have isName : Text.trimBlank (String.ofList (before ++ name.text.toList ++ after)) = name.text := by
    rw [Text.trimBlank, Text.trim_padded leads (trimmed_name name) trails, String.ofList_toList]
  have isNonempty : name.text.isEmpty = false := by
    rw [Bool.eq_false_iff, Ne, String.isEmpty_iff, ← String.toList_inj]
    exact name.isNonempty
  rw [atoms_of_free free, isName]
  simp [isNonempty]

/-- Every writing of an expression is cut into its names. -/
theorem atoms_of_written {expression : TypeExpression} {characters : List Char}
    (written : Written expression characters) :
    atoms (String.ofList characters) = expression.names.map TypeName.text := by
  induction written with
  | named name leads trails => exact atoms_of_name name leads trails
  | nullable leads _ inductionHypothesis =>
      rw [atoms_append rfl, atoms_of_isGap leads, inductionHypothesis]
      rfl
  | union _ _ ofLeft ofRight =>
      rw [atoms_append rfl, ofLeft, ofRight, TypeExpression.names, List.map_append]
  | intersection _ _ ofLeft ofRight =>
      rw [atoms_append rfl, ofLeft, ofRight, TypeExpression.names, List.map_append]
  | grouped leads _ trails inductionHypothesis =>
      rw [atoms_append rfl, atoms_append rfl, atoms_of_isGap leads, inductionHypothesis,
        atoms_of_isGap trails, List.nil_append, List.append_nil]
      rfl

/-! ## Builtin types -/

theorem isBuiltinName_iff (name : TypeName) :
    isBuiltinName name.text = true ↔
      ∃ builtin ∈ builtinNames, Text.sameFolded name.text builtin = true := by
  have folded : ∀ builtin ∈ builtinNames, Text.fold builtin = builtin := by decide +kernel
  have trimmed : Text.trimBlank name.text = name.text := Text.trim_eq_self (trimmed_name name)
  unfold isBuiltinName
  rw [trimmed, List.contains_iff_mem]
  constructor
  · intro member
    exact ⟨_, member, by rw [Text.sameFolded, folded _ member, beq_self_eq_true]⟩
  · rintro ⟨builtin, member, same⟩
    rw [Text.sameFolded, beq_iff_eq, folded _ member] at same
    rw [same]
    exact member

/-- A hint that writes a type expression is builtin exactly if every name of the expression
is the name of a builtin type in some ASCII case, whatever the layout. -/
theorem written_builtin_iff {expression : TypeExpression} {hint : String}
    (written : Written expression hint.toList) :
    isBuiltin hint = true ↔
      ∀ name ∈ expression.names,
        ∃ builtin ∈ builtinNames, Text.sameFolded name.text builtin = true := by
  have cut := atoms_of_written written
  rw [String.ofList_toList] at cut
  have someName : (expression.names.map TypeName.text).isEmpty = false := by
    simp [expression.names_ne_nil]
  unfold isBuiltin
  rw [cut, someName]
  simp [isBuiltinName_iff]

/-- The type `?(INT&string)|Null`, laid out with several kinds of white space. -/
def spacedExpression : TypeExpression :=
  .union (.nullable (.grouped (.intersection
      (.named ⟨"INT", by decide, free_of_all (by decide +kernel)⟩)
      (.named ⟨"string", by decide, free_of_all (by decide +kernel)⟩))))
    (.named ⟨"Null", by decide, free_of_all (by decide +kernel)⟩)

theorem spaced_type_builtin :
    Written spacedExpression " ? (INT\t& string ) |\u3000Null\n".toList ∧
      isBuiltin " ? (INT\t& string ) |\u3000Null\n" = true := by
  have blank : IsGap [' '] := by simp [IsGap, Text.isBlank]
  have first (name : TypeName) : Written (.named name) ([] ++ name.text.toList ++ ['\t']) :=
    .named name (by simp [IsGap]) (by simp [IsGap, Text.isBlank])
  have second (name : TypeName) : Written (.named name) ([' '] ++ name.text.toList ++ [' ']) :=
    .named name blank blank
  have third (name : TypeName) : Written (.named name) (['\u3000'] ++ name.text.toList ++ ['\n']) :=
    .named name (by simp [IsGap, Text.isBlank]) (by simp [IsGap, Text.isBlank])
  have written : Written spacedExpression " ? (INT\t& string ) |\u3000Null\n".toList :=
    .union (.nullable blank (.grouped blank (.intersection (first _) (second _)) blank)) (third _)
  refine ⟨written, (written_builtin_iff written).mpr ?_⟩
  decide +kernel

end FactoryProxy.TypeHint
