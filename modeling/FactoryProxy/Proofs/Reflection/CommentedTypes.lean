import FactoryProxy.Artifact.Basic
import FactoryProxy.Proofs.Php.Comments
import FactoryProxy.Proofs.Sequencing
import FactoryProxy.Proofs.Text.Pieces
import FactoryProxy.Proofs.Text.Trimming
import FactoryProxy.Reflection.Declarations

/-!
Contract: factories of constructors with comments in the types of their parameters.

A type is kept as its exact text, and the test on a hint takes a comment for part of a
name. So a comment in the type of a parameter that the caller supplies hands the parameter
over to the container, and the factory loses it.

Owns: constructors with comments put into their types, and the roles and the parameters of
`create` that they lead to.
-/

namespace FactoryProxy

namespace TypeHint

/-! ## Characters of builtin hints -/

/-- A hint of builtin types has no other characters than theirs and those around them. -/
theorem char_of_isBuiltin {hint : String} {c : Char} (builtin : isBuiltin hint = true)
    (member : c ∈ hint.toList) :
    isJoint c = true ∨ Text.isBlank c = true ∨ ∃ name ∈ builtinNames, c.toLower ∈ name.toList := by
  cases joint : isJoint c with
  | true => exact .inl rfl
  | false =>
      cases blank : Text.isBlank c with
      | true => exact .inr (.inl rfl)
      | false =>
          right
          right
          obtain ⟨piece, isPiece, inside⟩ := Text.exists_piece_of_mem member joint
          have inAtom : c ∈ (Text.trimBlank (String.ofList piece)).toList :=
            Text.mem_trim (by rwa [String.toList_ofList]) blank
          have isCut : String.ofList piece ∈ Text.splitBy isJoint hint := by
            unfold Text.splitBy
            exact List.mem_map_of_mem isPiece
          have isNonempty : (Text.trimBlank (String.ofList piece)).isEmpty = false := by
            rw [Bool.eq_false_iff, Ne, String.isEmpty_iff]
            intro isEmpty
            rw [isEmpty] at inAtom
            cases inAtom
          have isAtom : Text.trimBlank (String.ofList piece) ∈ atoms hint := by
            unfold atoms
            rw [List.mem_filter, isNonempty]
            exact ⟨List.mem_map_of_mem isCut, rfl⟩
          unfold isBuiltin at builtin
          rw [Bool.and_eq_true] at builtin
          have isName := List.all_eq_true.mp builtin.2 _ isAtom
          unfold isBuiltinName at isName
          refine ⟨_, List.contains_iff_mem.mp isName, ?_⟩
          rw [Text.toList_fold]
          exact List.mem_map_of_mem (Text.mem_trim inAtom blank)

theorem isBuiltin_of_mark {hint : String} {mark : Char} (isMark : mark ∈ Php.commentMarks)
    (member : mark ∈ hint.toList) : isBuiltin hint = false := by
  rw [Bool.eq_false_iff]
  intro builtin
  have allowed := char_of_isBuiltin builtin member
  simp only [Php.commentMarks, List.mem_cons, List.not_mem_nil, or_false] at isMark
  rcases isMark with rfl | rfl
  · exact absurd allowed (by decide +kernel)
  · exact absurd allowed (by decide +kernel)

end TypeHint

open Php (ParameterSyntax ConstructorSyntax TextCommented)

/-! ## Comments in types -/

/-- The same parameter with comments put into its type. -/
def Php.ParameterSyntax.TypeCommented (bare commented : ParameterSyntax) : Prop :=
  ∃ hint, Option.Rel TextCommented bare.typeHint hint ∧ commented = { bare with typeHint := hint }

/-- The same constructor with comments put into the types of its parameters. -/
structure Php.ConstructorSyntax.TypesCommented (bare commented : ConstructorSyntax) : Prop where
  sameVisibility : commented.visibility = bare.visibility
  parameters : List.Forall₂ ParameterSyntax.TypeCommented bare.parameters commented.parameters

namespace Parameter

/-- The same parameter with comments put into its type. -/
def TypeCommented (bare commented : Parameter) : Prop :=
  ∃ hint, Option.Rel TextCommented bare.typeHint hint ∧ commented = { bare with typeHint := hint }

variable {bare commented : Parameter}

theorem TypeCommented.name_eq (added : TypeCommented bare commented) :
    commented.name = bare.name := by
  obtain ⟨hint, _, rfl⟩ := added
  rfl

/-- A builtin type remains one exactly if no comment changes it, and no other becomes one. -/
theorem TypeCommented.isBuiltin_eq (added : TypeCommented bare commented) :
    commented.isBuiltin = (bare.isBuiltin && commented.typeHint == bare.typeHint) := by
  obtain ⟨hint, related, rfl⟩ := added
  cases isHint : bare.typeHint with
  | none =>
      rw [isHint] at related
      cases related
      simp [isBuiltin, role, isHint]
  | some before =>
      rw [isHint] at related
      cases related with
      | some inText =>
          rename_i after
          by_cases same : after = before
          · simp [isBuiltin, role, isHint, same]
          · obtain ⟨mark, isMark, inside⟩ := inText.mark_mem same
            have noBuiltin := TypeHint.isBuiltin_of_mark isMark inside
            have differ : (some after == some before) = false := by simp [same]
            simp only [isBuiltin, role, noBuiltin, differ, Bool.and_false]
            rfl

theorem isBuiltin_eq_true_iff : bare.isBuiltin = true ↔ bare.role = .builtin := by
  simp [isBuiltin]

/-- Comments keep the role of a parameter exactly if they leave its type as it is or the
container supplies it anyway. -/
theorem TypeCommented.role_eq_iff (added : TypeCommented bare commented) :
    commented.role = bare.role ↔
      commented.typeHint = bare.typeHint ∨ bare.role = .delegated := by
  have decided : commented.role = .builtin ↔
      bare.role = .builtin ∧ commented.typeHint = bare.typeHint := by
    rw [← isBuiltin_eq_true_iff, ← isBuiltin_eq_true_iff, added.isBuiltin_eq]
    simp
  cases before : bare.role <;> cases after : commented.role <;> simp [before, after] at decided ⊢
  all_goals assumption

/-! ## Parameters of the caller -/

/-- The name of a parameter that the caller supplies. -/
def callerName? (parameter : Parameter) : Option String :=
  if parameter.isBuiltin then some parameter.name else none

theorem TypeCommented.callerName?_eq (added : TypeCommented bare commented) :
    commented.callerName? = if commented.typeHint = bare.typeHint then bare.callerName? else none := by
  unfold callerName?
  rw [added.isBuiltin_eq, added.name_eq]
  by_cases same : commented.typeHint = bare.typeHint <;> simp [same]

theorem TypeCommented.keepsNoMore : Sequencing.KeepsNoMore TypeCommented callerName? callerName? := by
  intro plain other added isDelegated
  rw [added.callerName?_eq, isDelegated, ite_self]

/-- A caller's parameter stays one exactly if no comment changes its type. -/
theorem TypeCommented.callerName?_rel (added : TypeCommented bare commented) :
    Option.Rel (· = ·) bare.callerName? commented.callerName? ↔
      (bare.role = .builtin → commented.typeHint = bare.typeHint) := by
  rw [added.callerName?_eq, ← isBuiltin_eq_true_iff]
  by_cases same : commented.typeHint = bare.typeHint
  · cases bare.callerName? <;> simp [same]
  · cases builtin : bare.isBuiltin <;> simp [callerName?, same, builtin]

end Parameter

namespace Constructor

/-! ## Constructors with comments in types -/

/-- Which parameters can be left out does not depend on their types. -/
theorem markOptional_typeCommented {bare commented : List Parameter}
    (added : List.Forall₂ Parameter.TypeCommented bare commented) :
    List.Forall₂ Parameter.TypeCommented (markOptional bare).1 (markOptional commented).1 ∧
      (markOptional commented).2 = (markOptional bare).2 := by
  induction added with
  | nil => exact ⟨.nil, rfl⟩
  | cons ofFirst _ inductionHypothesis =>
      obtain ⟨hint, related, rfl⟩ := ofFirst
      obtain ⟨ofRest, sameFlag⟩ := inductionHypothesis
      simp only [markOptional, sameFlag]
      exact ⟨.cons ⟨hint, related, rfl⟩ ofRest, rfl⟩

end Constructor

namespace Reflection

variable {declaring : Declaring} {bare commented : ConstructorSyntax}

theorem parameters_typeCommented (declaring : Declaring)
    (added : bare.TypesCommented commented) :
    List.Forall₂ Parameter.TypeCommented (constructorOf declaring bare).parameters
      (constructorOf declaring commented).parameters := by
  refine (Constructor.markOptional_typeCommented ?_).1
  rw [List.forall₂_map_left_iff, List.forall₂_map_right_iff]
  refine added.parameters.imp ?_
  rintro plain _ ⟨hint, related, rfl⟩
  exact ⟨hint, related, rfl⟩

/-- The names of the parameters of `create` in the factory for a constructor. -/
def createNames (className : String) (constructor : Constructor) : List String :=
  (Artifact.creationMethod className constructor.builtinParameters).parameters.map
    ParameterDeclaration.name

theorem createNames_eq (className : String) (constructor : Constructor) :
    createNames className constructor =
      constructor.parameters.filterMap Parameter.callerName? := by
  have selected : createNames className constructor =
      (constructor.parameters.filter Parameter.isBuiltin).map (fun parameter => parameter.name) := by
    simp [createNames, Artifact.creationMethod, Constructor.builtinParameters]
  rw [selected]
  induction constructor.parameters with
  | nil => rfl
  | cons parameter rest inductionHypothesis =>
      rw [List.filter_cons, List.filterMap_cons, ← inductionHypothesis, Parameter.callerName?]
      split <;> rfl

/-- The constructors of a file with the classes that they make. -/
def createNamesIn (text : String) : List (String × List String) :=
  (declarationsIn ⟨"a.php"⟩ text).flatMap (fun declared =>
    declared.constructor.toList.map (fun constructor =>
      (declared.name, createNames declared.name constructor)))

/-- Comments in the types of a constructor leave every role that the container has, and take
from the caller exactly the parameters whose types they change; `create` keeps the others in
their order. -/
theorem create_keeps_uncommented (declaring : Declaring) (className : String)
    (added : bare.TypesCommented commented) :
    List.Forall₂ (fun plain other => other.role = plain.role ↔
        other.typeHint = plain.typeHint ∨ plain.role = .delegated)
      (constructorOf declaring bare).parameters (constructorOf declaring commented).parameters ∧
    createNames className (constructorOf declaring commented) =
      ((constructorOf declaring bare).parameters.zip
          (constructorOf declaring commented).parameters).filterMap (fun pair =>
        if pair.2.typeHint = pair.1.typeHint then pair.1.callerName? else none) ∧
    (createNames className (constructorOf declaring commented) =
        createNames className (constructorOf declaring bare) ↔
      List.Forall₂ (fun plain other => plain.role = .builtin → other.typeHint = plain.typeHint)
        (constructorOf declaring bare).parameters
        (constructorOf declaring commented).parameters) := by
  have related := parameters_typeCommented declaring added
  rw [createNames_eq, createNames_eq]
  refine ⟨related.imp ?_, ?_, ?_⟩
  · intro plain other inType
    exact inType.role_eq_iff
  · obtain ⟨sameLength, pairs⟩ := List.forall₂_iff_zip.mp related
    conv_lhs => rw [← List.map_snd_zip (Nat.le_of_eq sameLength.symm)]
    rw [List.filterMap_map]
    apply List.filterMap_congr
    intro pair member
    exact (pairs member).callerName?_eq
  · rw [eq_comm, ← List.forall₂_eq_eq_eq]
    apply Sequencing.forall₂_filterMap_iff related Parameter.TypeCommented.keepsNoMore
    intro plain other inType
    exact inType.callerName?_rel

/-- A comment in a union of builtin types and one in a nullable class. -/
theorem commented_types_leave_untyped :
    createNames "A" (constructorOf ⟨.global, "A", none⟩ ⟨none,
      [⟨"x", some "int/* id */|string", none, false, false⟩, ⟨"y", none, none, false, false⟩,
        ⟨"z", some "?# service\nFoo", none, false, false⟩]⟩) = ["y"] := by
  have isBlock : Php.Token.IsComment ⟨.comment, "/* id */"⟩ :=
    ⟨rfl, "<?php /* id */", by decide +kernel⟩
  have isLine : Php.Token.IsComment ⟨.comment, "# service"⟩ :=
    ⟨rfl, "<?php # service\n", by decide +kernel⟩
  have inUnion : TextCommented "int|string" "int/* id */|string" :=
    ⟨[⟨.word, "int"⟩, ⟨.symbol, "|"⟩, ⟨.word, "string"⟩], _, by decide +kernel, by decide +kernel,
      .kept _ (.inserted isBlock (.kept _ (.kept _ .nil)))⟩
  have behindMark : TextCommented "?\nFoo" "?# service\nFoo" :=
    ⟨[⟨.symbol, "?"⟩, ⟨.blank, "\n"⟩, ⟨.word, "Foo"⟩], _, by decide +kernel, by decide +kernel,
      .kept _ (.inserted isLine (.kept _ (.kept _ .nil)))⟩
  have added : ConstructorSyntax.TypesCommented
      ⟨none, [⟨"x", some "int|string", none, false, false⟩, ⟨"y", none, none, false, false⟩,
        ⟨"z", some "?\nFoo", none, false, false⟩]⟩
      ⟨none, [⟨"x", some "int/* id */|string", none, false, false⟩, ⟨"y", none, none, false, false⟩,
        ⟨"z", some "?# service\nFoo", none, false, false⟩]⟩ :=
    ⟨rfl, .cons ⟨_, .some inUnion, rfl⟩ (.cons ⟨_, .none, rfl⟩ (.cons ⟨_, .some behindMark, rfl⟩ .nil))⟩
  refine (create_keeps_uncommented ⟨.global, "A", none⟩ "A" added).2.1.trans ?_
  decide +kernel

set_option maxRecDepth 100000 in
/-- A comment between the members of a union takes the parameter from the factory. -/
theorem comment_takes_parameter_from_create :
    (Php.SourceFile.ofText
        "<?php class A \x7b function __construct(int /* id */ | string $x) \x7b\x7d \x7d").wellFormed =
        true ∧
      createNamesIn
        "<?php class A \x7b function __construct(int | string $x) \x7b\x7d \x7d" =
        [("A", ["x"])] ∧
      createNamesIn
        "<?php class A \x7b function __construct(int /* id */ | string $x) \x7b\x7d \x7d" =
        [("A", [])] := by
  decide +kernel

end Reflection

end FactoryProxy
