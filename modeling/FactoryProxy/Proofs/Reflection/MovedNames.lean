import FactoryProxy.Proofs.Reflection.Denotation
import FactoryProxy.Proofs.Reflection.Splicing
import FactoryProxy.Reflection.Declarations

/-!
Contract: default values keep their class references in another namespace.

A moved value is the written one with some ranges replaced. The ranges are those of the
names that denote something in the declaring class, wherever they stand in the
expression, and each replacement is read as the denoted name in every namespace.

Owns: the segments of expressions, the agreement of the replacements among them with the
places of names and what the names denote, and the values that do not keep their references
if names are taken exactly as they are written.
-/

namespace FactoryProxy.Reflection

open Php (Expression)
open Php.Expression (Role NameAt NameIn CreatesDirectly CreateDirectly)

variable {declaring : Declaring}

/-! ## Segments of expressions -/

theorem before_nameSegment (declaring : Declaring) (role : Role) (written : String) :
    (nameSegment declaring role written).before = written := by
  rcases nameSegment_cases declaring role written with ⟨_, _, replaced⟩ | ⟨_, kept⟩
  · rw [replaced, Segment.before]
  · rw [kept, Segment.before]

theorem segments_constantAccess_name (declaring : Declaring) (text access : String) :
    declaring.segments (.constantAccess (.name text) access) =
      [nameSegment declaring .reference text, .kept access] := by
  simp only [Declaring.segments, Expression.name?, nameSegment, List.singleton_append]

theorem segments_constantAccess {owner : Expression} {access : String}
    (isNoName : owner.name? = none) :
    declaring.segments (.constantAccess owner access) =
      declaring.segments owner ++ [.kept access] := by
  rw [Declaring.segments, isNoName]

theorem segments_instantiation (declaring : Declaring) (intro : List Php.Token)
    (className : String) (arguments : List Expression) :
    declaring.segments (.instantiation intro className arguments) =
      .kept (Expression.tokensText intro) ::
        nameSegment declaring (Expression.createdRole intro) className ::
          declaring.segmentsOf arguments := by
  unfold Declaring.segments Expression.createdRole
  split <;> rfl

theorem name?_eq_some {value : Expression} {text : String} (isName : value.name? = some text) :
    value = .name text := by
  cases value with
  | name other => rw [Option.some.inj isName]
  | leaf => cases isName
  | constantAccess => cases isName
  | instantiation => cases isName
  | compound => cases isName

mutual

theorem before_segments (declaring : Declaring) :
    ∀ value : Expression,
      Text.concat ((declaring.segments value).map Segment.before) = value.text
  | .leaf token => by rfl
  | .name text => before_nameSegment declaring .mention text
  | .constantAccess owner access => by
      cases isName : owner.name? with
      | some text =>
          rw [name?_eq_some isName, segments_constantAccess_name, List.map_cons,
            Text.concat_cons, before_nameSegment]
          rfl
      | none =>
          rw [segments_constantAccess isName, List.map_append, Text.concat_append,
            before_segments declaring owner]
          rfl
  | .instantiation intro className arguments => by
      rw [segments_instantiation, List.map_cons, List.map_cons, Text.concat_cons,
        Text.concat_cons, before_nameSegment, before_segmentsOf declaring arguments,
        Expression.text, String.append_assoc]
      rfl
  | .compound parts => before_segmentsOf declaring parts

theorem before_segmentsOf (declaring : Declaring) :
    ∀ parts : List Expression,
      Text.concat ((declaring.segmentsOf parts).map Segment.before) = Expression.textOf parts
  | [] => by rfl
  | part :: rest => by
      rw [Declaring.segmentsOf, List.map_append, Text.concat_append,
        before_segments declaring part, before_segmentsOf declaring rest, Expression.textOf]

end

/-- Of the names at these places, counted from the position, the edit replaces one that
denotes something by what it denotes. -/
def IsMove (declaring : Declaring) (places : Nat → Role → String → Prop) (position : Nat)
    (edit : Edit) : Prop :=
  ∃ start role name, places start role edit.written ∧ edit.start = position + start ∧
    Denotes declaring role edit.written name ∧ edit.replacement = Name.fullyQualified name

variable {places first behind : Nat → Role → String → Prop} {position width : Nat} {edit : Edit}

theorem isMove_congr
    (same : ∀ start role written, places start role written ↔ first start role written) :
    IsMove declaring places position edit ↔ IsMove declaring first position edit := by
  unfold IsMove
  simp only [same]

/-- Places in a stretch and behind it, the latter counted from its end. -/
theorem isMove_split
    (split : ∀ start role written, places start role written ↔
      first start role written ∨
        ∃ further, start = width + further ∧ behind further role written) :
    IsMove declaring places position edit ↔
      IsMove declaring first position edit ∨
        IsMove declaring behind (position + width) edit := by
  constructor
  · rintro ⟨start, role, name, place, isStart, denotes, isReplacement⟩
    rcases (split start role edit.written).mp place with inFirst | ⟨further, rfl, isBehind⟩
    · exact .inl ⟨start, role, name, inFirst, isStart, denotes, isReplacement⟩
    · exact .inr ⟨further, role, name, isBehind, isStart.trans (Nat.add_assoc _ _ _).symm,
        denotes, isReplacement⟩
  · rintro (⟨start, role, name, inFirst, isStart, denotes, isReplacement⟩ |
      ⟨further, role, name, isBehind, isStart, denotes, isReplacement⟩)
    · exact ⟨start, role, name, (split _ _ _).mpr (.inl inFirst), isStart, denotes,
        isReplacement⟩
    · exact ⟨width + further, role, name, (split _ _ _).mpr (.inr ⟨further, rfl, isBehind⟩),
        isStart.trans (Nat.add_assoc _ _ _), denotes, isReplacement⟩

theorem isMove_nowhere (nowhere : ∀ start role written, ¬ places start role written) :
    ¬ IsMove declaring places position edit := by
  rintro ⟨start, role, name, place, _⟩
  exact nowhere start role edit.written place

/-- The only place is that of one name. -/
theorem mem_ofSegments_name (start : Nat) (role : Role) (written : String) :
    edit ∈ Edit.ofSegments (position + start) [nameSegment declaring role written] ↔
      IsMove declaring (fun place inRole name => place = start ∧ inRole = role ∧ name = written)
        position edit := by
  rcases nameSegment_cases declaring role written with
    ⟨name, denotes, replaced⟩ | ⟨nothing, kept⟩
  · rw [replaced, Edit.ofSegments, Edit.ofSegments, List.mem_singleton]
    constructor
    · rintro rfl
      exact ⟨start, role, name, ⟨rfl, rfl, rfl⟩, rfl, denotes, rfl⟩
    · rintro ⟨_, _, other, ⟨rfl, rfl, isWritten⟩, isStart, isOther, isReplacement⟩
      rw [isWritten] at isOther
      cases edit
      simp only [Edit.mk.injEq]
      exact ⟨isStart, isWritten, isReplacement.trans (congrArg _ (isOther.unique denotes))⟩
  · rw [kept, Edit.ofSegments, Edit.ofSegments]
    constructor
    · intro member
      cases member
    · rintro ⟨_, _, other, ⟨rfl, rfl, isWritten⟩, _, isOther, _⟩
      rw [isWritten] at isOther
      exact absurd isOther (nothing other)

mutual

/-- The replacements in an expression are those of its names. -/
theorem mem_ofSegments_iff (declaring : Declaring) (edit : Edit) :
    ∀ (value : Expression) (position : Nat), value.CreatesDirectly →
      (edit ∈ Edit.ofSegments position (declaring.segments value) ↔
        IsMove declaring (NameAt value) position edit)
  | .leaf token, position, _ => by
      constructor
      · intro member
        cases member
      · intro isMove
        refine absurd isMove (isMove_nowhere ?_)
        intro start role written named
        cases named
  | .name text, position, _ => by
      refine (mem_ofSegments_name 0 .mention text).trans (isMove_congr ?_)
      intro start role written
      constructor
      · rintro ⟨rfl, rfl, rfl⟩
        exact .mention written
      · intro named
        cases named
        exact ⟨rfl, rfl, rfl⟩
  | .constantAccess owner access, position, direct => by
      cases isName : owner.name? with
      | some text =>
          rw [name?_eq_some isName, segments_constantAccess_name]
          have noMore := Edit.ofSegments_kept position [nameSegment declaring .reference text] access
          rw [List.singleton_append] at noMore
          rw [noMore]
          refine (mem_ofSegments_name 0 .reference text).trans (isMove_congr ?_)
          intro start role written
          exact Expression.nameAt_constantAccess_name.symm
      | none =>
          rw [segments_constantAccess isName, Edit.ofSegments_kept]
          refine (mem_ofSegments_iff declaring edit owner position direct).trans (isMove_congr ?_)
          intro start role written
          exact (Expression.nameAt_constantAccess isName).symm
  | .instantiation intro className arguments, position, direct => by
      have created : edit ∈ Edit.ofSegments (position + (Expression.tokensText intro).length)
          [nameSegment declaring .reference className] ↔ _ :=
        mem_ofSegments_name (Expression.tokensText intro).length .reference className
      have isLength : (Text.concat ([nameSegment declaring .reference className].map
          Segment.before)).length = className.length := by
        rw [List.map_singleton, before_nameSegment]
        rfl
      rw [segments_instantiation, Expression.createdRole_of_direct direct.1, Edit.ofSegments,
        ← List.singleton_append, Edit.ofSegments_append, List.mem_append, created, isLength,
        Nat.add_assoc,
        mem_ofSegments_iff_nameIn declaring edit arguments _ direct.2]
      symm
      apply isMove_split
      intro start role written
      exact Expression.nameAt_instantiation
  | .compound parts, position, direct => by
      refine (mem_ofSegments_iff_nameIn declaring edit parts position direct).trans
        (isMove_congr ?_)
      intro start role written
      exact Expression.nameAt_compound.symm

theorem mem_ofSegments_iff_nameIn (declaring : Declaring) (edit : Edit) :
    ∀ (parts : List Expression) (position : Nat), CreateDirectly parts →
      (edit ∈ Edit.ofSegments position (declaring.segmentsOf parts) ↔
        IsMove declaring (NameIn parts) position edit)
  | [], position, _ => by
      constructor
      · intro member
        cases member
      · intro isMove
        refine absurd isMove (isMove_nowhere ?_)
        intro start role written
        exact Expression.nameIn_nil
  | part :: rest, position, direct => by
      rw [Declaring.segmentsOf, Edit.ofSegments_append, List.mem_append, before_segments,
        mem_ofSegments_iff declaring edit part position direct.1,
        mem_ofSegments_iff_nameIn declaring edit rest _ direct.2]
      symm
      apply isMove_split
      intro start role written
      exact Expression.nameIn_cons

end

/-- A moved value is the written one with the names replaced that denote something in the
declaring class, at every depth and in the order of the text. A replacement is read in every
namespace as the denoted name, less white space at its end. -/
theorem moved_replaces_denoted_names (declaring : Declaring) (value : Expression)
    (direct : value.CreatesDirectly) :
    ∃ edits : List Edit,
      (∀ edit, edit ∈ edits ↔ ∃ role name, NameAt value edit.start role edit.written ∧
        Denotes declaring role edit.written name ∧
          edit.replacement = Name.fullyQualified name) ∧
      edits.Pairwise (fun earlier later => earlier.stop ≤ later.start) ∧
      (∀ edit ∈ edits, ∃ before after, value.text = before ++ edit.written ++ after ∧
        before.length = edit.start) ∧
      (declaring.moved value).toList = Edit.splice 0 value.text.toList edits ∧
      ∀ namespaceName name,
        (Name.NameScope.ofNamespace namespaceName).resolve (Name.fullyQualified name) =
          Text.trimEnd Text.isBlank name := by
  have exactly : ∀ edit, edit ∈ Edit.ofSegments 0 (declaring.segments value) ↔
      ∃ role name, NameAt value edit.start role edit.written ∧
        Denotes declaring role edit.written name ∧
          edit.replacement = Name.fullyQualified name := by
    intro edit
    rw [mem_ofSegments_iff declaring edit value 0 direct]
    constructor
    · rintro ⟨start, role, name, named, isStart, denotes, isReplacement⟩
      rw [Nat.zero_add] at isStart
      rw [← isStart] at named
      exact ⟨role, name, named, denotes, isReplacement⟩
    · rintro ⟨role, name, named, denotes, isReplacement⟩
      exact ⟨edit.start, role, name, named, (Nat.zero_add _).symm, denotes, isReplacement⟩
  refine ⟨Edit.ofSegments 0 (declaring.segments value), exactly, Edit.apart_ofSegments _ _,
    ?_, ?_, ?_⟩
  · intro edit member
    obtain ⟨_, _, named, _⟩ := (exactly edit).mp member
    exact named.text_eq
  · rw [← before_segments declaring value, Edit.splice_ofSegments]
    rfl
  · intro namespaceName name
    exact resolve_fullyQualified _ name

/-- The value `new A(new B(self::C), D\E)`. -/
def nestedValue : Expression :=
  let intro : List Php.Token := [⟨.word, "new"⟩, ⟨.blank, " "⟩]
  .instantiation intro "A" [
    .leaf ⟨.opening .round, "("⟩,
    .instantiation intro "B" [
      .leaf ⟨.opening .round, "("⟩, .constantAccess (.name "self") "::C",
      .leaf ⟨.closing .round, ")"⟩],
    .leaf ⟨.symbol, ","⟩, .leaf ⟨.blank, " "⟩, .name "D\\E",
    .leaf ⟨.closing .round, ")"⟩]

/-- The class of a constant in an argument of an argument of `new` is replaced where it
stands. -/
theorem nested_names_moved :
    nestedValue.CreatesDirectly ∧
      ∃ edits : List Edit, ⟨12, "self", "\\N\\F"⟩ ∈ edits ∧
        (Declaring.moved ⟨.ofNamespace "N", "N\\F", none⟩ nestedValue).toList =
          Edit.splice 0 nestedValue.text.toList edits := by
  have direct : nestedValue.CreatesDirectly := by
    simp [nestedValue, CreatesDirectly, CreateDirectly, Php.Token.isTrivia]
  obtain ⟨edits, exactly, _, _, spliced, _⟩ :=
    moved_replaces_denoted_names ⟨.ofNamespace "N", "N\\F", none⟩ nestedValue direct
  refine ⟨direct, edits, (exactly _).mpr ⟨.reference, "N\\F", ?_, ?_, rfl⟩, spliced⟩
  · refine Expression.nameAt_instantiation.mpr (.inr ⟨7, by decide, ?_⟩)
    refine Expression.nameIn_cons.mpr (.inr ⟨6, by decide, Expression.nameIn_cons.mpr (.inl ?_)⟩)
    refine Expression.nameAt_instantiation.mpr (.inr ⟨1, by decide, ?_⟩)
    refine Expression.nameIn_cons.mpr (.inr ⟨0, by decide, Expression.nameIn_cons.mpr (.inl ?_)⟩)
    exact .owner "self" "::C"
  · exact .ownClass (.inl (by decide))

/-! ## Names read as they are written -/

/-- What a name denotes if white space at its ends counts and anything may stand behind `new`:
a keyword is then exactly its letters. -/
def Declaring.asWritten? (declaring : Declaring) : Role → String → Option String
  | .reference, written =>
    if Text.sameFolded written "self" ∨ Text.sameFolded written "static" then
      some declaring.className
    else if Text.sameFolded written "parent" then declaring.parent
    else some (declaring.scope.resolve written)
  | .mention, written =>
    if Name.separator ∈ written.toList then some (declaring.scope.resolve written) else none

/-- The names are replaced by what they denote as they are written, everything else is copied,
and in every namespace a replacement is read as exactly the name that was denoted. -/
def KeepsReferences (declaring : Declaring) (value : Expression) : Prop :=
  ∃ edits : List Edit,
    (∀ edit, edit ∈ edits ↔ ∃ role name, NameAt value edit.start role edit.written ∧
      declaring.asWritten? role edit.written = some name ∧
        edit.replacement = Name.fullyQualified name) ∧
    edits.Pairwise (fun earlier later => earlier.stop ≤ later.start) ∧
    (∀ edit ∈ edits, ∃ before after, value.text = before ++ edit.written ++ after ∧
      before.length = edit.start) ∧
    (declaring.moved value).toList = Edit.splice 0 value.text.toList edits ∧
    ∀ edit ∈ edits, ∀ namespaceName name, edit.replacement = Name.fullyQualified name →
      (Name.NameScope.ofNamespace namespaceName).resolve edit.replacement = name

theorem Edit.eq_singleton_of_apart {edits : List Edit} {only : Edit}
    (exactly : ∀ edit, edit ∈ edits ↔ edit = only)
    (apart : edits.Pairwise (fun earlier later => earlier.stop ≤ later.start))
    (isNonempty : 0 < only.written.length) : edits = [only] := by
  cases edits with
  | nil => cases (exactly only).mpr rfl
  | cons first rest =>
      have isFirst := (exactly first).mp List.mem_cons_self
      subst isFirst
      cases rest with
      | nil => rfl
      | cons second further =>
          have isSecond := (exactly second).mp (List.mem_cons_of_mem _ List.mem_cons_self)
          have ordered := (List.pairwise_cons.mp apart).1 second List.mem_cons_self
          rw [isSecond, Edit.stop] at ordered
          omega

/-- A value whose one name is a class is kept only as the splice of that class. -/
theorem KeepsReferences.of_only_name {value : Expression} {start : Nat} {written name : String}
    (keeps : KeepsReferences declaring value)
    (only : ∀ place role other, NameAt value place role other ↔
      place = start ∧ role = .reference ∧ other = written)
    (denoted : declaring.asWritten? .reference written = some name)
    (isNonempty : 0 < written.length) :
    (declaring.moved value).toList =
        Edit.splice 0 value.text.toList [⟨start, written, Name.fullyQualified name⟩] ∧
      ∀ namespaceName, (Name.NameScope.ofNamespace namespaceName).resolve
        (Name.fullyQualified name) = name := by
  obtain ⟨edits, exactly, apart, _, spliced, readBack⟩ := keeps
  have isOnly : ∀ edit, edit ∈ edits ↔ edit = ⟨start, written, Name.fullyQualified name⟩ := by
    intro edit
    rw [exactly]
    constructor
    · rintro ⟨role, other, named, isOther, isReplacement⟩
      obtain ⟨isStart, rfl, isWritten⟩ := (only _ _ _).mp named
      rw [isWritten, denoted] at isOther
      rw [← Option.some.inj isOther] at isReplacement
      cases edit
      simp only [Edit.mk.injEq]
      exact ⟨isStart, isWritten, isReplacement⟩
    · rintro rfl
      exact ⟨.reference, name, (only _ _ _).mpr ⟨rfl, rfl, rfl⟩, denoted, rfl⟩
  have isSingle := Edit.eq_singleton_of_apart isOnly apart isNonempty
  rw [isSingle] at spliced readBack
  exact ⟨spliced, fun namespaceName =>
    readBack _ List.mem_cons_self namespaceName name rfl⟩

/-- The default values of the constructors in a source text. -/
def defaultsIn (text : String) : List (Option String) :=
  (declarationsIn ⟨"a.php"⟩ text).flatMap (fun declared =>
    declared.constructor.toList.flatMap (fun constructor =>
      constructor.parameters.map (fun parameter => parameter.defaultValue)))

/-- A default value, the class of its constructor, and a source text in which it stands. -/
structure WrittenDefault where
  source : String
  declaring : Declaring
  value : Expression

/-- No comment stands behind `new` in the value, and it does not keep its references as they are
written. -/
structure WrittenDefault.LosesReference (written : WrittenDefault) : Prop where
  isDefault : defaultsIn written.source = [some (written.declaring.moved written.value)]
  uncommented : written.value.CreatesUncommented
  notKept : ¬ KeepsReferences written.declaring written.value

/-- The class name ends in white space, which is lost once the moved name is resolved. -/
def blankEnd : WrittenDefault where
  source := "<?php namespace N;
    class F\u3000 \x7b function __construct($x = self::A) \x7b\x7d \x7d"
  declaring := ⟨.ofNamespace "N", "N\\F\u3000", none⟩
  value := .constantAccess (.name "self") "::A"

/-- The keyword has white space behind it and is known all the same. -/
def blankKeyword : WrittenDefault where
  source := "<?php namespace N;
    class F \x7b function __construct($x = self\u3000::A) \x7b\x7d \x7d"
  declaring := ⟨.ofNamespace "N", "N\\F", none⟩
  value := .constantAccess (.name "self\u3000") "::A"

/-- Behind `new` a stretch outside the code keeps the class from being replaced. -/
def outsideStretch : WrittenDefault where
  source := "<?php namespace N;
    class F \x7b function __construct($x = new ?><?php A()) \x7b\x7d \x7d"
  declaring := ⟨.ofNamespace "N", "N\\F", none⟩
  value := .instantiation [⟨.word, "new"⟩, ⟨.blank, " "⟩, ⟨.outside, "?><?php "⟩] "A"
    [.leaf ⟨.opening .round, "("⟩, .leaf ⟨.closing .round, ")"⟩]

theorem nameAt_outsideStretch (start : Nat) (role : Role) (written : String) :
    NameAt outsideStretch.value start role written ↔
      start = 12 ∧ role = .reference ∧ written = "A" := by
  have noArgument : ∀ behind, ¬ NameIn
      [.leaf ⟨.opening .round, "("⟩, .leaf ⟨.closing .round, ")"⟩] behind role written := by
    intro behind inside
    rcases Expression.nameIn_cons.mp inside with inOpening | ⟨_, _, further⟩
    · cases inOpening
    · rcases Expression.nameIn_cons.mp further with inClosing | ⟨_, _, nowhere⟩
      · cases inClosing
      · exact Expression.nameIn_nil nowhere
  refine Expression.nameAt_instantiation.trans ?_
  constructor
  · rintro (⟨rfl, isReference, isWritten⟩ | ⟨behind, _, inArgument⟩)
    · exact ⟨by decide, isReference, isWritten⟩
    · exact absurd inArgument (noArgument behind)
  · rintro ⟨rfl, isReference, isWritten⟩
    exact .inl ⟨by decide, isReference, isWritten⟩

set_option maxRecDepth 100000 in
theorem losesReference_blankEnd : blankEnd.LosesReference where
  isDefault := by decide +kernel
  uncommented := trivial
  notKept := by
    intro keeps
    have denoted : blankEnd.declaring.asWritten? .reference "self" = some "N\\F\u3000" := by
      decide +kernel
    obtain ⟨_, readBack⟩ := keeps.of_only_name
      (fun _ _ _ => Expression.nameAt_constantAccess_name) denoted (by decide)
    have isLost : (Name.NameScope.ofNamespace "G").resolve (Name.fullyQualified "N\\F\u3000") =
        "N\\F" := by
      decide +kernel
    rw [readBack "G"] at isLost
    exact absurd isLost (by decide)

set_option maxRecDepth 100000 in
theorem losesReference_blankKeyword : blankKeyword.LosesReference where
  isDefault := by decide +kernel
  uncommented := trivial
  notKept := by
    intro keeps
    have denoted : blankKeyword.declaring.asWritten? .reference "self\u3000" =
        some "N\\self" := by
      decide +kernel
    obtain ⟨spliced, _⟩ := keeps.of_only_name
      (fun _ _ _ => Expression.nameAt_constantAccess_name) denoted (by decide)
    exact absurd spliced (by decide +kernel)

set_option maxRecDepth 100000 in
theorem losesReference_outsideStretch : outsideStretch.LosesReference where
  isDefault := by decide +kernel
  uncommented := by
    simp [outsideStretch, Expression.CreatesUncommented, Expression.CreateUncommented]
  notKept := by
    intro keeps
    have denoted : outsideStretch.declaring.asWritten? .reference "A" = some "N\\A" := by
      decide +kernel
    obtain ⟨spliced, _⟩ := keeps.of_only_name nameAt_outsideStretch denoted (by decide)
    exact absurd spliced (by decide +kernel)

/-- Not every value without a comment behind `new` keeps its references as they are written:
white space at the end of a class name and behind a keyword is against it, and so is a stretch
outside the code behind `new`. -/
theorem blank_ends_and_outside_stretches :
    (¬ ∀ (declaring : Declaring) (value : Expression), value.CreatesUncommented →
        KeepsReferences declaring value) ∧
      blankEnd.LosesReference ∧ blankKeyword.LosesReference ∧ outsideStretch.LosesReference := by
  refine ⟨?_, losesReference_blankEnd, losesReference_blankKeyword,
    losesReference_outsideStretch⟩
  intro keepsAll
  exact losesReference_blankEnd.notKept (keepsAll _ _ losesReference_blankEnd.uncommented)

end FactoryProxy.Reflection
