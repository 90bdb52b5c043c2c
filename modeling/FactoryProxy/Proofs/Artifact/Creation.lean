import FactoryProxy.Proofs.ClassIndex.Inheritance
import FactoryProxy.Selection

/-!
Contract: the method of a factory against the constructor of the class.

A class is made by the constructor that comes first on the way from the class to its parent,
the parent of that one and so on, which may be a circle. The method takes the parameters of
this constructor that need no class, as they are declared.

Owns: the sequence of parents, its first constructor, and the parameters of the method in the
artifact and in its text.
-/

namespace FactoryProxy

namespace ClassIndex

variable {index : ClassIndex} {declared above : ClassDeclaration} {constructor : Constructor}

/-! ## The sequence of parents -/

/-- The class itself, its parent as the index has it, the parent of that one and so on. -/
def lineage (index : ClassIndex) (declared : ClassDeclaration) : Nat → Option ClassDeclaration
  | 0 => some declared
  | n + 1 => (lineage index declared n).bind (fun below => below.parent.bind index.get?)

/-- The sequence of a class goes on as that of its parent. -/
theorem lineage_succ (n : Nat) :
    lineage index declared (n + 1) =
      (declared.parent.bind index.get?).bind (fun above => lineage index above n) := by
  induction n with
  | zero => exact (Option.bind_fun_some _).symm
  | succ n inductionHypothesis =>
      rw [lineage, inductionHypothesis, Option.bind_assoc]
      rfl

/-- The constructor is declared by the first class of the sequence that declares one. -/
def DeclaredFirst (index : ClassIndex) (declared : ClassDeclaration) (constructor : Constructor) :
    Prop :=
  ∃ n above, lineage index declared n = some above ∧ above.constructor = some constructor ∧
    ∀ m < n, ∀ below, lineage index declared m = some below → below.constructor = none

theorem declaredFirst_of_own (declares : declared.constructor = some constructor) :
    DeclaredFirst index declared constructor :=
  ⟨0, declared, rfl, declares, fun m below => absurd below (Nat.not_lt_zero m)⟩

theorem declaredFirst_of_above {parent : String} (silent : declared.constructor = none)
    (isParent : declared.parent = some parent) (indexed : index.get? parent = some above)
    (first : DeclaredFirst index above constructor) : DeclaredFirst index declared constructor := by
  have goesOn : ∀ n, lineage index declared (n + 1) = lineage index above n := by
    intro n
    rw [lineage_succ, isParent, Option.bind_some, indexed, Option.bind_some]
  obtain ⟨n, holder, isHolder, declares, silentBelow⟩ := first
  refine ⟨n + 1, holder, (goesOn n).trans isHolder, declares, ?_⟩
  intro m below member isMember
  cases m with
  | zero =>
      rw [← Option.some.inj isMember]
      exact silent
  | succ m => exact silentBelow m (by omega) member ((goesOn m).symm.trans isMember)

/-- The effective constructor is the first one of the sequence. -/
theorem effectiveConstructor_iff_declaredFirst :
    EffectiveConstructor index declared constructor ↔
      DeclaredFirst index declared constructor := by
  constructor
  · intro effective
    induction effective with
    | own declares => exact declaredFirst_of_own declares
    | inherited silent isParent indexed _ inductionHypothesis =>
        exact declaredFirst_of_above silent isParent indexed inductionHypothesis
  · rintro ⟨n, holder, isHolder, declares, silentBelow⟩
    induction n generalizing declared with
    | zero =>
        rw [← Option.some.inj isHolder] at declares
        exact .own declares
    | succ n inductionHypothesis =>
        have silent := silentBelow 0 (Nat.succ_pos n) declared rfl
        rw [lineage_succ, Option.bind_eq_some_iff] at isHolder
        obtain ⟨next, isNext, further⟩ := isHolder
        obtain ⟨parent, isParent, indexed⟩ := Option.bind_eq_some_iff.mp isNext
        refine .inherited silent isParent indexed (inductionHypothesis further ?_)
        intro m below member isMember
        apply silentBelow (m + 1) (by omega) member
        rw [lineage_succ, isNext]
        exact isMember

end ClassIndex

namespace Artifact

variable {index : ClassIndex} {declared : ClassDeclaration} {constructor : Constructor}

/-! ## The parameters of the method -/

/-- The parameter has no type, or one that needs no class. -/
def NeedsNoClass (parameter : ParameterDeclaration) : Prop :=
  ∀ hint, parameter.typeHint = some hint → TypeHint.isBuiltin hint = true

instance (parameter : ParameterDeclaration) : Decidable (NeedsNoClass parameter) :=
  decidable_of_iff (parameter.typeHint.all TypeHint.isBuiltin = true) (Option.all_eq_true _ _)

theorem isBuiltin_iff (parameter : Parameter) :
    parameter.isBuiltin = true ↔ NeedsNoClass parameter.toParameterDeclaration := by
  unfold Parameter.isBuiltin Parameter.role NeedsNoClass
  cases parameter.typeHint with
  | none => simp
  | some hint => cases TypeHint.isBuiltin hint <;> simp

theorem isBuiltin_of_mem_callerParameters {parameter : Parameter}
    (member : parameter ∈ callerParameters index declared) : parameter.isBuiltin = true := by
  unfold callerParameters at member
  cases found : index.constructorOf declared with
  | none =>
      rw [found] at member
      cases member
  | some constructor =>
      rw [found] at member
      exact (List.mem_filter.mp member).2

/-- The declared parameters that need no class, in their order. -/
theorem callerParameters_of_constructor (isFound : index.constructorOf declared = some constructor) :
    (callerParameters index declared).map Parameter.toParameterDeclaration =
      (constructor.parameters.map Parameter.toParameterDeclaration).filter
        (fun parameter => NeedsNoClass parameter) := by
  unfold callerParameters
  rw [isFound, List.filter_map]
  apply congrArg
  apply List.filter_congr
  intro parameter _
  rw [Bool.eq_iff_iff, isBuiltin_iff, Function.comp_apply, decide_eq_true_iff]

/-- Without a constructor in the sequence there is nothing to pass on, also on a circle. -/
theorem callerParameters_of_silent (keyed : ClassIndex.Keyed index.classes)
    (indexed : declared ∈ index.toList)
    (silent : ∀ n above, ClassIndex.lineage index declared n = some above →
      above.constructor = none) : callerParameters index declared = [] := by
  have notFound : index.constructorOf declared = none := by
    apply Option.eq_none_iff_forall_ne_some.mpr
    intro constructor isFound
    have effective := (ClassIndex.constructorOf_eq_some_iff keyed indexed).mp isFound
    obtain ⟨n, holder, isHolder, declares, _⟩ :=
      ClassIndex.effectiveConstructor_iff_declaredFirst.mp effective
    rw [silent n holder isHolder] at declares
    cases declares
  unfold callerParameters
  rw [notFound]
  rfl

/-! ## The text of the method -/

theorem printMethod_creationMethod (file : Interface.SourceFile) (className : String)
    (parameters : List Parameter) :
    Interface.printMethod file (creationMethod className parameters) =
      Interface.printDoc (parameters.map documentationLine) ++
        "\tpublic function create(" ++
        Text.joinWith ", " ((parameters.map Parameter.toParameterDeclaration).map
          Interface.printParameter) ++
        "): " ++ file.relativeName className ++ ";\n" := by
  have opening : "\tpublic function create(" = "\tpublic function " ++ "create" ++ "(" := by decide
  have returning : "): " = ")" ++ ": " := by decide
  unfold Interface.printMethod
  rw [opening, returning]
  simp only [creationMethod, String.append_assoc]

/-- The method is the last part of its file before the closing brace. -/
theorem source_ofClass (index : ClassIndex) (namespaceName : String) (declared : ClassDeclaration) :
    ∃ before, (ofClass index namespaceName declared).source =
      before ++ "\tpublic function create(" ++
        Text.joinWith ", " (((callerParameters index declared).map
          Parameter.toParameterDeclaration).map Interface.printParameter) ++
        "): " ++ (ofClass index namespaceName declared).file.relativeName declared.name ++
        ";\n\x7d\n" := by
  have closing : ";\n\x7d\n" = ";\n" ++ "\x7d\n" := by decide
  refine ⟨?_, ?_⟩
  case refine_2 =>
    unfold source Interface.SourceFile.render ofClass factory Interface.SourceFile.ofInterface
    simp only [List.map_cons, List.map_nil, Text.concat, Text.joinWith, Interface.printDeclaration,
      printMethod_creationMethod, closing, ← String.append_assoc]
    rfl

/-! ## The method of a factory -/

/-- The artifact of an indexed class has one method. It gives the class and takes, as they are
declared and in their order, the parameters without a class type of the first constructor in
the sequence of parents, or nothing where no class of the sequence declares one. Its text has
the same parameters. -/
theorem creation_mirrors_constructor (keyed : ClassIndex.Keyed index.classes)
    (indexed : declared ∈ index.toList) (namespaceName : String) :
    ∃ method : Interface.Method,
      (ofClass index namespaceName declared).file.interfaces.map Interface.Declaration.methods =
        [[method]] ∧
      method.name = "create" ∧ method.returnType = some declared.name ∧
      (∀ constructor, ClassIndex.DeclaredFirst index declared constructor →
        method.parameters = (constructor.parameters.map Parameter.toParameterDeclaration).filter
          (fun parameter => NeedsNoClass parameter)) ∧
      (∀ parameter ∈ method.parameters, NeedsNoClass parameter) ∧
      ((∀ n above, ClassIndex.lineage index declared n = some above →
        above.constructor = none) → method.parameters = []) ∧
      ∃ before, (ofClass index namespaceName declared).source =
        before ++ "\tpublic function create(" ++
          Text.joinWith ", " (method.parameters.map Interface.printParameter) ++
          "): " ++ (ofClass index namespaceName declared).file.relativeName declared.name ++
          ";\n\x7d\n" := by
  have ofFirst : ∀ constructor, ClassIndex.DeclaredFirst index declared constructor →
      (callerParameters index declared).map Parameter.toParameterDeclaration =
        (constructor.parameters.map Parameter.toParameterDeclaration).filter
          (fun parameter => NeedsNoClass parameter) := by
    intro constructor first
    apply callerParameters_of_constructor
    rw [ClassIndex.constructorOf_eq_some_iff keyed indexed]
    exact ClassIndex.effectiveConstructor_iff_declaredFirst.mpr first
  refine ⟨creationMethod declared.name (callerParameters index declared), rfl, rfl, rfl,
    ofFirst, ?_, ?_, source_ofClass index namespaceName declared⟩
  · intro parameter member
    obtain ⟨supplied, isSupplied, rfl⟩ := List.mem_map.mp member
    exact (isBuiltin_iff supplied).mp (isBuiltin_of_mem_callerParameters isSupplied)
  · intro silent
    show (callerParameters index declared).map Parameter.toParameterDeclaration = []
    rw [callerParameters_of_silent keyed indexed silent]
    rfl

/-- A constructor with a reference, a class type, a default and a variadic parameter. -/
def mixedConstructor : Constructor :=
  .ofParameters .publicAccess [
    ⟨⟨"count", some "?int", none, true, false⟩, false⟩,
    ⟨⟨"logger", some "Logger", none, false, false⟩, false⟩,
    ⟨⟨"label", none, some "'x'", false, false⟩, false⟩,
    ⟨⟨"names", some "string", none, false, true⟩, false⟩]

/-- `C` and `D` extend each other; `E` comes to the constructor of `C` by way of `D`. -/
def circleClasses : List ClassDeclaration := [
  ⟨"C", .classKind, false, some "D", [], some mixedConstructor, ⟨"c.php"⟩, 1⟩,
  ⟨"D", .classKind, true, some "\\c", [], none, ⟨"d.php"⟩, 1⟩,
  ⟨"E", .classKind, false, some "d", [], none, ⟨"e.php"⟩, 1⟩]

def circleIndex : ClassIndex :=
  ⟨.ofList (circleClasses.map (fun declared => (declared.key, declared))), []⟩

/-- The method for `E` takes three of the four parameters, which come from beyond `D`. -/
theorem creation_of_circle_member :
    ∃ method : Interface.Method,
      (ofClass circleIndex "G" circleClasses[2]).file.interfaces.map
          Interface.Declaration.methods = [[method]] ∧
      method.parameters = [
        ⟨"count", some "?int", none, true, false⟩, ⟨"label", none, some "'x'", false, false⟩,
        ⟨"names", some "string", none, false, true⟩] := by
  have built : ClassIndex.ofClasses circleClasses = .ok circleIndex := by decide +kernel
  have indexed : circleClasses[2] ∈ circleIndex.toList :=
    (ClassIndex.mem_toList_iff built).mpr (List.getElem_mem _)
  have aboveE : circleIndex.get? "d" = some circleClasses[1] := by decide +kernel
  have aboveD : circleIndex.get? "\\c" = some circleClasses[0] := by decide +kernel
  have first : ClassIndex.DeclaredFirst circleIndex circleClasses[2] mixedConstructor := by
    apply ClassIndex.declaredFirst_of_above rfl rfl aboveE
    apply ClassIndex.declaredFirst_of_above rfl rfl aboveD
    exact ClassIndex.declaredFirst_of_own rfl
  obtain ⟨method, isOnly, _, _, ofFirst, _⟩ :=
    creation_mirrors_constructor (ClassIndex.keyed_of_ofClasses built) indexed "G"
  refine ⟨method, isOnly, (ofFirst mixedConstructor first).trans ?_⟩
  decide +kernel

end Artifact

end FactoryProxy
