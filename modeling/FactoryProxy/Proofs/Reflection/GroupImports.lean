import FactoryProxy.Proofs.Name.Resolution
import FactoryProxy.Proofs.Php.ReadImports
import FactoryProxy.Proofs.Reflection.Statements

/-!
Contract: what a group of imports means.

The names in braces are imported below their common start as if each had a declaration of its
own. A marked name imports no class, in braces or not, and a marked declaration has no effect.

Owns: the expansion of a group, and the agreement of the scopes behind both.
-/

namespace FactoryProxy

namespace Name

/-- A name that does not end with a separator is separators in front of a trimmed name. -/
theorem exists_trimmed {name : String} {last : Char} (isLast : name.toList.getLast? = some last)
    (notSeparator : isSeparator last = false) :
    ∃ run core, name.toList = run ++ core ∧ (∀ c ∈ run, isSeparator c = true) ∧ core ≠ [] ∧
      Text.Trimmed isSeparator core := by
  have isWhole : name.toList.takeWhile isSeparator ++ name.toList.dropWhile isSeparator =
      name.toList := List.takeWhile_append_dropWhile
  have isSome : name.toList.dropWhile isSeparator ≠ [] :=
    List.ne_nil_of_mem (Text.mem_dropWhile (List.mem_of_getLast? isLast) notSeparator)
  refine ⟨_, _, isWhole.symm, List.all_eq_true.mp List.all_takeWhile, isSome, ?_, ?_⟩
  · intro first isFirst
    have dropped := List.head?_dropWhile_not isSeparator name.toList
    rw [isFirst] at dropped
    simpa using dropped
  · intro found isFound
    rw [← isWhole, List.getLast?_append, isFound] at isLast
    rw [Option.some.inj isLast]
    exact notSeparator

/-- Separators in front of the upper name are dropped from the joined name as from the upper
one. -/
theorem trimSeparators_join {parent child : String} {last : Char}
    (isLast : parent.toList.getLast? = some last) (notSeparator : isSeparator last = false)
    (trimmed : Text.Trimmed isSeparator child.toList) (isSome : child ≠ "") :
    trimSeparators (join parent child) = join (trimSeparators parent) child := by
  obtain ⟨run, core, isWhole, leads, isCore, trimmedCore⟩ := exists_trimmed isLast notSeparator
  have isParent : parent = String.ofList (run ++ core ++ []) := by
    rw [List.append_nil, ← isWhole, String.ofList_toList]
  have isJoined : join parent child =
      String.ofList (run ++ (core ++ separator :: child.toList) ++ []) := by
    apply String.toList_injective
    rw [toList_join, isWhole, String.toList_ofList]
    simp
  have trimmedJoined : Text.Trimmed isSeparator (core ++ separator :: child.toList) := by
    constructor
    · intro first isFirst
      rw [List.head?_append, List.head?_eq_some_head isCore, Option.some_or,
        ← List.head?_eq_some_head] at isFirst
      exact trimmedCore.1 first isFirst
    · intro found isFound
      have isChild : child.toList ≠ [] :=
        fun isEmpty => isSome (String.toList_eq_nil_iff.mp isEmpty)
      rw [List.getLast?_append, List.getLast?_cons,
        List.getLast?_eq_some_getLast isChild] at isFound
      apply trimmed.2
      rw [List.getLast?_eq_some_getLast isChild, ← isFound]
      rfl
  have noneBehind : ∀ c ∈ ([] : List Char), isSeparator c = true := List.forall_mem_nil _
  rw [isJoined, trimSeparators, Text.trim_padded leads trimmedJoined noneBehind]
  apply String.toList_injective
  rw [toList_join, isParent, trimSeparators, Text.trim_padded leads trimmedCore noneBehind,
    String.toList_ofList, String.toList_ofList]

/-- Outer separators of a target do not count. -/
theorem NameScope.addImport_of_trimmed (scope : NameScope) {target other : String}
    (same : trimSeparators target = trimSeparators other) (localName : Option String) :
    scope.addImport target localName = scope.addImport other localName := by
  unfold addImport
  rw [same]

end Name

namespace Php.WrittenImport

/-- The declarations that import the names of a group one by one. -/
def expansion (start : List Token) (members : List WrittenClause) : List WrittenImport :=
  (members.filter (fun member => !member.marked)).map fun member =>
    .list false [⟨false, start ++ .backslash :: member.name, member.localName⟩]

theorem head?_append_backslash {tokens more : List Token} (isName : IsName tokens) :
    (tokens ++ .backslash :: more).head? = tokens.head? := by
  obtain ⟨first, rest, rfl, -⟩ := Grammar.head_of_isName isName
  rfl

/-- The expansion of a group consists of declarations. -/
theorem valid_expansion {start : List Token} {members : List WrittenClause}
    (valid : (group false start members).Valid) : ∀ form ∈ expansion start members, form.Valid := by
  intro form isForm
  obtain ⟨member, isMember, rfl⟩ := List.mem_map.mp isForm
  cases valid with
  | group isName unmarked areValid areLocal =>
      have isLocal := areLocal member ((List.mem_filter.mp isMember).1)
      refine .list (List.forall_mem_singleton.mpr ⟨isName.append isLocal, fun _ => ?_⟩)
        (List.forall_mem_singleton.mpr rfl)
      unfold StartsUnmarked
      rw [head?_append_backslash isName]
      exact unmarked rfl

theorem isName_of_written {marked : Bool} {start tokens : List Token}
    {members : List WrittenClause} (written : WrittenImports [.group marked start members] tokens) :
    IsName start ∧ ∀ member ∈ members, IsLocalName member.name := by
  cases written with
  | more _ written _ =>
      cases written with
      | group _ _ isName _ _ _ _ _ areLocal _ _ _ => exact ⟨isName, areLocal⟩

end Php.WrittenImport

namespace Reflection

open Php (WrittenClause WrittenImport WrittenImports)
open Php.Expression (tokensText)

variable {file : Path} {scope : Name.NameScope} {start : List Php.Token}
  {members : List WrittenClause}

theorem scopeBehind_imports (file : Path) (scope : Name.NameScope) (forms : List WrittenImport) :
    scopeBehind file scope (forms.map fun form => .imports form.declared) =
      (forms.map WrittenImport.declared).foldl addImports scope := by
  unfold scopeBehind
  rw [List.foldl_map, List.foldl_map]
  rfl

theorem addImports_of_marked {declared : Php.ImportSyntax} (marked : declared.marked = true) :
    addImports scope declared = scope :=
  if_pos marked

/-- A name in braces is imported as the name below the start. -/
theorem addClause_below {member : WrittenClause} (isStart : Php.IsName start)
    (isMember : Php.IsLocalName member.name) (unmarked : member.marked = false) :
    addClause (some (tokensText start)) scope member.clause =
      scope.addImport (tokensText (start ++ .backslash :: member.name)) member.localName := by
  obtain ⟨last, isLast, notSeparator⟩ := isStart.getLast?
  have isSome : tokensText member.name ≠ "" := by
    obtain ⟨found, isFound, -⟩ := Php.IsName.getLast? (.inl isMember)
    intro isEmpty
    rw [isEmpty] at isFound
    cases isFound
  have isJoined : tokensText (start ++ .backslash :: member.name) =
      Name.join (tokensText start) (tokensText member.name) := by
    rw [Php.tokensText_append, Php.tokensText_cons, ← String.append_assoc]
    rfl
  have isTrimmed : Name.trimSeparators (tokensText member.name) = tokensText member.name :=
    Text.trim_eq_self isMember.trimmed
  have joined := Name.trimSeparators_join isLast notSeparator isMember.trimmed isSome
  unfold addClause
  rw [if_neg (by rw [show member.clause.marked = member.marked from rfl, unmarked]; decide)]
  apply Name.NameScope.addImport_of_trimmed
  show Name.trimSeparators (Name.join (Name.trimSeparators (tokensText start))
    (Name.trimSeparators (tokensText member.name))) = _
  rw [isTrimmed, isJoined, ← joined, Name.trimSeparators_trimSeparators]

theorem addImports_single (scope : Name.NameScope) (name : List Php.Token)
    (localName : Option String) :
    addImports scope (WrittenImport.list false [⟨false, name, localName⟩]).declared =
      scope.addImport (tokensText name) localName := by
  simp [addImports, WrittenImport.declared, addClause, clauseTarget, WrittenClause.clause]

/-- The scope behind a group is the scope behind its expansion. -/
theorem addImports_group (isStart : Php.IsName start)
    (areLocal : ∀ member ∈ members, Php.IsLocalName member.name) :
    addImports scope (WrittenImport.group false start members).declared =
      ((WrittenImport.expansion start members).map WrittenImport.declared).foldl addImports
        scope := by
  show (members.map WrittenClause.clause).foldl (addClause (some (tokensText start))) scope = _
  unfold WrittenImport.expansion
  induction members generalizing scope with
  | nil => rfl
  | cons first others inductionHypothesis =>
      have areOthers : ∀ member ∈ others, Php.IsLocalName member.name :=
        fun member isMember => areLocal member (List.mem_cons_of_mem _ isMember)
      rw [List.map_cons, List.foldl_cons, inductionHypothesis areOthers]
      cases isMarked : first.marked with
      | true =>
          have isSkipped : addClause (some (tokensText start)) scope first.clause = scope :=
            if_pos isMarked
          rw [isSkipped, List.filter_cons_of_neg (by simp [isMarked])]
      | false =>
          rw [addClause_below isStart (areLocal first List.mem_cons_self) isMarked,
            List.filter_cons_of_pos (by simp [isMarked]), List.map_cons, List.map_cons,
            List.foldl_cons, addImports_single]

/-- Names in braces below a common start leave the scope in which every reference denotes what it
denotes behind one declaration for each unmarked name, in order. A declaration of functions or
constants leaves the scope as it is. -/
theorem group_imports_mean_expansion (file : Path) (scope : Name.NameScope) :
    (∀ start members grouped expanded,
      WrittenImports [.group false start members] (Php.scan grouped) →
      WrittenImports (WrittenImport.expansion start members) (Php.scan expanded) → ∀ reference,
      (scopeBehind file scope (Php.SourceFile.ofText grouped).statements).resolve reference =
        (scopeBehind file scope (Php.SourceFile.ofText expanded).statements).resolve reference) ∧
    ∀ form text, form.marked = true → WrittenImports [form] (Php.scan text) →
      scopeBehind file scope (Php.SourceFile.ofText text).statements = scope := by
  constructor
  · intro start members grouped expanded isGrouped isExpanded reference
    obtain ⟨isStart, areLocal⟩ := WrittenImport.isName_of_written isGrouped
    have sameScope : addImports scope (WrittenImport.group false start members).declared =
        ((WrittenImport.expansion start members).map WrittenImport.declared).foldl addImports
          scope := addImports_group isStart areLocal
    rw [isGrouped.statements_ofText, isExpanded.statements_ofText, scopeBehind_imports,
      scopeBehind_imports, ← sameScope]
    rfl
  · intro form text marked written
    have isMarked : form.declared.marked = true := by
      cases form <;> exact marked
    rw [written.statements_ofText, scopeBehind_imports]
    exact addImports_of_marked isMarked

/-! ## A group with a nested, a renamed and a marked name -/

open Php (Token IsName IsLocalName scan)

/-- The tag and a space. -/
def opened : List Token := [⟨.outside, "<?php"⟩, .space]

def vendorMembers : List WrittenClause := [
  ⟨false, [.word "A"], none⟩,
  ⟨false, [.word "Sub", .backslash, .word "B"], some "C"⟩,
  ⟨true, [.word "f"], none⟩]

def vendorGroup : WrittenImport := .group false [.word "Vendor"] vendorMembers

def vendorFunction : WrittenImport :=
  .list true [⟨false, [.word "Vendor", .backslash, .word "f"], none⟩]

theorem isLocalName_word {word : Token} (isSegment : word.IsSegment) : IsLocalName [word] :=
  ⟨word, [], rfl, isSegment, .nil⟩

theorem startsUnmarked_cons {first : Token} {rest : List Token}
    (noMarker : Text.fold first.text ∉ ["function", "const"]) :
    Php.StartsUnmarked (first :: rest) := by
  rintro found isFirst ⟨-, isMarker⟩
  rw [← Option.some.inj isFirst] at isMarker
  exact noMarker isMarker

theorem valid_vendor : vendorGroup.Valid ∧ vendorFunction.Valid := by
  have isVendor : IsLocalName [.word "Vendor"] := isLocalName_word (by decide +kernel)
  have isA : IsLocalName [.word "A"] := isLocalName_word (by decide +kernel)
  have isF : IsLocalName [.word "f"] := isLocalName_word (by decide +kernel)
  have isSub : IsLocalName [.word "Sub", .backslash, .word "B"] :=
    ⟨_, _, rfl, by decide +kernel, Php.IsBelow.nil.append (isLocalName_word (by decide +kernel))⟩
  constructor
  · refine .group (.inl isVendor) (fun _ => startsUnmarked_cons (by decide +kernel)) ?_ ?_
    · simp only [vendorMembers, List.forall_mem_cons]
      exact ⟨⟨.inl isA, fun _ => startsUnmarked_cons (by decide +kernel)⟩,
        ⟨.inl isSub, fun _ => startsUnmarked_cons (by decide +kernel)⟩,
        ⟨.inl isF, fun _ => startsUnmarked_cons (by decide +kernel)⟩, List.forall_mem_nil _⟩
    · simp only [vendorMembers, List.forall_mem_cons]
      exact ⟨isA, isSub, isF, List.forall_mem_nil _⟩
  · have isName : IsName [.word "Vendor", .backslash, .word "f"] :=
      IsName.append (.inl isVendor) isF
    refine .list (List.forall_mem_singleton.mpr ⟨isName, fun _ => ?_⟩)
      (List.forall_mem_singleton.mpr rfl)
    exact startsUnmarked_cons (by decide +kernel)

/-- Both names are found behind the group as behind the two declarations, and the function is not
imported. -/
theorem vendor_group_expands :
    (∀ reference,
      (scopeBehind ⟨"a.php"⟩ .global (Php.SourceFile.ofText
        "<?php use Vendor\\\x7b A, Sub\\B as C, function f\x7d; ").statements).resolve reference =
      (scopeBehind ⟨"a.php"⟩ .global (Php.SourceFile.ofText
        "<?php use Vendor\\A; use Vendor\\Sub\\B as C; ").statements).resolve reference) ∧
      scopeBehind ⟨"a.php"⟩ .global (Php.SourceFile.ofText
        "<?php use function Vendor\\f; ").statements = .global := by
  have isTrivia : ∀ token ∈ opened, token.isTrivia = true := by decide
  obtain ⟨ofGroups, ofMarked⟩ := group_imports_mean_expansion ⟨"a.php"⟩ .global
  constructor
  · refine ofGroups [.word "Vendor"] vendorMembers _ _ ?_ ?_
    · rw [show scan "<?php use Vendor\\\x7b A, Sub\\B as C, function f\x7d; " =
        WrittenImport.plainAll opened [vendorGroup] by decide +kernel]
      exact Php.writtenImports_plainAll (List.forall_mem_singleton.mpr valid_vendor.1) isTrivia
    · rw [show scan "<?php use Vendor\\A; use Vendor\\Sub\\B as C; " =
        WrittenImport.plainAll opened
          (WrittenImport.expansion [.word "Vendor"] vendorMembers) by decide +kernel]
      exact Php.writtenImports_plainAll (WrittenImport.valid_expansion valid_vendor.1) isTrivia
  · refine ofMarked vendorFunction _ rfl ?_
    rw [show scan "<?php use function Vendor\\f; " =
      WrittenImport.plainAll opened [vendorFunction] by decide +kernel]
    exact Php.writtenImports_plainAll (List.forall_mem_singleton.mpr valid_vendor.2) isTrivia

end Reflection

end FactoryProxy
