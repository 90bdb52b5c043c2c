import FactoryProxy.Proofs.Artifact.Creation
import FactoryProxy.Proofs.Artifact.Naming
import FactoryProxy.Proofs.Name.Resolution
import FactoryProxy.Proofs.Reflection.Denotation
import Mathlib.Data.List.TakeWhile

/-!
Contract: the names printed in a generated file, read in the namespace of the file.

A name directly in the namespace is printed as its last segment, any other name behind a
separator. Read where it stands, what is printed denotes the name again.

Owns: which names are printed short, what printed names denote, and the names of the marker
and of the class in the text of a factory.

Names are read without the white space at their ends, so a name that ends in white space
loses it, and so does a printed segment that starts with it.
-/

namespace FactoryProxy

namespace Interface

namespace SourceFile

variable {file : SourceFile} {name rest : String}

/-! ## Short names -/

/-- The name stands directly in the namespace, as `rest`. -/
structure IsDirect (namespaceName name rest : String) : Prop where
  isNamed : namespaceName ≠ ""
  below : name = Name.join namespaceName rest
  isSegment : ∀ c ∈ rest.toList, Name.isSeparator c = false

theorem dropText_eq_some_iff {start text behind : List Char} :
    dropText start text = some behind ↔ text = start ++ behind := by
  induction start generalizing text with
  | nil => simp [dropText, eq_comm]
  | cons expected more inductionHypothesis =>
      cases text with
      | nil => simp [dropText]
      | cons actual others =>
          rw [dropText]
          by_cases same : expected = actual
          · simp [same, inductionHypothesis]
          · simp [same, Ne.symm same]

theorem relativeName_of_direct (direct : IsDirect file.namespaceName name rest) :
    file.relativeName name = rest := by
  have isNamed : file.namespaceName.isEmpty = false := by
    simpa [Bool.eq_false_iff, String.isEmpty_iff] using direct.isNamed
  have dropped : dropText file.namespaceName.toList name.toList =
      some (Name.separator :: rest.toList) := by
    rw [dropText_eq_some_iff, direct.below, Name.toList_join]
  have isFree : rest.toList.any Name.isSeparator = false := by
    simpa using direct.isSegment
  have separates : Name.isSeparator Name.separator = true := by decide
  simp [relativeName, isNamed, dropped, isFree, separates]

theorem relativeName_of_not_direct (notDirect : ∀ rest, ¬ IsDirect file.namespaceName name rest) :
    file.relativeName name = Name.fullyQualified name := by
  unfold relativeName
  dsimp only
  by_cases isNamed : file.namespaceName.isEmpty = true
  · simp [isNamed]
  rw [if_neg isNamed]
  split
  · rename_i segment isShort
    split at isShort
    · rename_i first behind dropped
      split at isShort
      · rename_i isFirst
        rw [Bool.and_eq_true] at isFirst
        have separates : first = Name.separator := by simpa [Name.isSeparator] using isFirst.1
        refine absurd ?_ (notDirect (String.ofList behind))
        refine ⟨fun isEmpty => isNamed (String.isEmpty_iff.mpr isEmpty), ?_, ?_⟩
        · apply String.toList_injective
          rw [dropText_eq_some_iff.mp dropped, Name.toList_join, separates, String.toList_ofList]
        · simpa using isFirst.2
      · cases isShort
    · cases isShort
  · rfl

/-! ## What printed names denote -/

/-- A word without separators is a name in the namespace of a scope without imports. -/
theorem resolve_segment (namespaceName : String)
    (isSegment : ∀ c ∈ rest.toList, Name.isSeparator c = false) :
    (Name.NameScope.ofNamespace namespaceName).resolve rest =
      (Name.NameScope.ofNamespace namespaceName).qualify (Text.trimBlank rest) := by
  have isFree : ∀ c ∈ (Text.trimBlank rest).toList, (!Name.isSeparator c) = true := by
    intro c member
    simpa using isSegment c (Text.mem_of_mem_trim member)
  have noneBelow : Name.below? rest = none := by
    rw [Name.below?, List.dropWhile_eq_nil_iff.mpr isFree]
    rfl
  have notComplete : ¬ Name.IsComplete rest := by simp [Name.IsComplete, noneBelow]
  have notRelative : ¬ Name.IsKeywordRelative rest := by simp [Name.IsKeywordRelative, noneBelow]
  rw [Name.NameScope.resolve_of_local notComplete notRelative]
  rfl

/-- A short name denotes the name again if its segment does not start or end in white space. -/
theorem resolve_relativeName_of_direct
    (trimmed : Name.trimSeparators file.namespaceName = file.namespaceName)
    (direct : IsDirect file.namespaceName name rest) :
    (Name.NameScope.ofNamespace file.namespaceName).resolve (file.relativeName name) =
      Name.join file.namespaceName (Text.trimBlank rest) := by
  have isNamed : ¬ file.namespaceName.isEmpty = true :=
    fun isEmpty => direct.isNamed (String.isEmpty_iff.mp isEmpty)
  rw [relativeName_of_direct direct, resolve_segment _ direct.isSegment]
  unfold Name.NameScope.qualify Name.NameScope.ofNamespace
  rw [trimmed, if_neg isNamed]

/-- The last character of a direct name is that of its segment. -/
theorem IsDirect.ends {namespaceName : String} (direct : IsDirect namespaceName name rest)
    (ends : ∀ last, name.toList.getLast? = some last → Text.isBlank last = false) :
    ∀ last, rest.toList.getLast? = some last → Text.isBlank last = false := by
  intro last isLast
  apply ends
  rw [direct.below, Name.toList_join, List.getLast?_append, List.getLast?_cons, isLast]
  rfl

/-- What is printed for a name denotes it, unless white space at an end gets lost. -/
theorem resolve_relativeName
    (trimmed : Name.trimSeparators file.namespaceName = file.namespaceName)
    (ends : ∀ last, name.toList.getLast? = some last → Text.isBlank last = false)
    (starts : ∀ rest, IsDirect file.namespaceName name rest →
      ∀ first, rest.toList.head? = some first → Text.isBlank first = false) :
    (Name.NameScope.ofNamespace file.namespaceName).resolve (file.relativeName name) = name := by
  by_cases isShort : ∃ rest, IsDirect file.namespaceName name rest
  · obtain ⟨rest, direct⟩ := isShort
    have keeps : Text.trimBlank rest = rest :=
      Text.trim_eq_self ⟨starts rest direct, direct.ends ends⟩
    rw [resolve_relativeName_of_direct trimmed direct, keeps, ← direct.below]
  · have notDirect : ∀ rest, ¬ IsDirect file.namespaceName name rest :=
      fun rest direct => isShort ⟨rest, direct⟩
    rw [relativeName_of_not_direct notDirect, Reflection.resolve_fullyQualified, Text.trimEnd,
      Text.dropTail_eq_self ends, String.ofList_toList]

end SourceFile

end Interface

/-! ## The names in a generated file -/

namespace Artifact

open Interface.SourceFile (IsDirect)

/-- The printed names in the text of a factory: the one behind `extends`, and the last one. -/
theorem source_factory (className : String) (parameters : List Parameter) (namespaceName : String)
    (dependencies : OrderedSet Path) :
    ∃ before body, (factory className parameters namespaceName dependencies).source =
      before ++ "interface " ++ factoryName className ++ " extends " ++
        (factory className parameters namespaceName dependencies).file.relativeName
          (qualifiedName namespaceName markerName) ++
        "\n\x7b\n" ++ body ++ "): " ++
        (factory className parameters namespaceName dependencies).file.relativeName className ++
        ";\n\x7d\n" := by
  have closing : ";\n\x7d\n" = ";\n" ++ "\x7d\n" := by decide
  refine ⟨"<?php\n" ++ "declare(strict_types=1);\n" ++
      (if namespaceName.isEmpty then "" else "\nnamespace " ++ namespaceName ++ ";\n") ++ "\n",
    Interface.printDoc (parameters.map documentationLine) ++ "\tpublic function create(" ++
      Text.joinWith ", " ((parameters.map Parameter.toParameterDeclaration).map
        Interface.printParameter), ?_⟩
  unfold source Interface.SourceFile.render factory Interface.SourceFile.ofInterface
  simp only [List.map_cons, List.map_nil, Text.concat, Text.joinWith, Interface.printDeclaration,
    printMethod_creationMethod, closing, List.isEmpty_cons, if_false, if_true, Bool.false_eq_true,
    String.append_assoc]

/-- The marker is read back in the namespace that it is generated for. -/
theorem resolve_marker (file : Interface.SourceFile)
    (trimmed : Name.trimSeparators file.namespaceName = file.namespaceName) :
    (Name.NameScope.ofNamespace file.namespaceName).resolve
        (file.relativeName (qualifiedName file.namespaceName markerName)) =
      qualifiedName file.namespaceName markerName := by
  have lastOfMarker : markerName.toList.getLast? = some 'y' := by decide
  have firstOfMarker : markerName.toList.head? = some 'I' := by decide
  have plainEnds : Text.isBlank 'y' = false ∧ Text.isBlank 'I' = false := by decide
  apply Interface.SourceFile.resolve_relativeName trimmed
  · intro last isLast
    have isWhole : (qualifiedName file.namespaceName markerName).toList.getLast? = some 'y' := by
      rw [toList_qualifiedName]
      split
      · exact lastOfMarker
      · rw [List.getLast?_append, List.getLast?_cons, lastOfMarker]
        rfl
    rw [isWhole] at isLast
    rw [← Option.some.inj isLast]
    exact plainEnds.1
  · intro rest direct first isFirst
    have isNamed : file.namespaceName.toList ≠ [] := by
      simpa [String.toList_eq_nil_iff] using direct.isNamed
    have isMarker : markerName.toList = rest.toList := by
      have characters := congrArg String.toList direct.below
      rw [toList_qualifiedName, trimmed, if_neg isNamed, Name.toList_join] at characters
      exact (List.cons.inj (List.append_cancel_left characters)).2
    rw [← isMarker, firstOfMarker] at isFirst
    rw [← Option.some.inj isFirst]
    exact plainEnds.2

/-- In a namespace without outer separators the printed form of a full name denotes the name,
which has no white space around it and, directly in the namespace, none in front of its
segment. So what a factory prints behind `extends` denotes the marker, and the type that it
prints last denotes the class. -/
theorem printed_names_resolve_back {namespaceName : String}
    (trimmed : Name.trimSeparators namespaceName = namespaceName) :
    (∀ (file : Interface.SourceFile) (name : String), file.namespaceName = namespaceName →
      Text.trimBlank name = name →
      (∀ rest, IsDirect namespaceName name rest → Text.trimStart Text.isBlank rest = rest) →
      (Name.NameScope.ofNamespace namespaceName).resolve (file.relativeName name) = name) ∧
    ∀ (className : String) (parameters : List Parameter) (dependencies : OrderedSet Path),
      Text.trimBlank className = className →
      (∀ rest, IsDirect namespaceName className rest →
        Text.trimStart Text.isBlank rest = rest) →
      let artifact := factory className parameters namespaceName dependencies
      (∃ before body, artifact.source =
        before ++ "interface " ++ factoryName className ++ " extends " ++
          artifact.file.relativeName (marker namespaceName).qualified ++ "\n\x7b\n" ++ body ++
          "): " ++ artifact.file.relativeName className ++ ";\n\x7d\n") ∧
      (Name.NameScope.ofNamespace namespaceName).resolve
          (artifact.file.relativeName (marker namespaceName).qualified) =
        (marker namespaceName).qualified ∧
      (Name.NameScope.ofNamespace namespaceName).resolve (artifact.file.relativeName className) =
        className := by
  have readBack : ∀ (file : Interface.SourceFile) (name : String),
      file.namespaceName = namespaceName → Text.trimBlank name = name →
      (∀ rest, IsDirect namespaceName name rest → Text.trimStart Text.isBlank rest = rest) →
      (Name.NameScope.ofNamespace namespaceName).resolve (file.relativeName name) = name := by
    rintro file name rfl unspaced starts
    apply Interface.SourceFile.resolve_relativeName trimmed
    · have isTrimmed := Text.trimmed_trim Text.isBlank name
      rw [← Text.trimBlank, unspaced] at isTrimmed
      exact isTrimmed.2
    · intro rest direct first isFirst
      have dropped := List.head?_dropWhile_not Text.isBlank rest.toList
      have keeps := congrArg String.toList (starts rest direct)
      rw [Text.trimStart, String.toList_ofList] at keeps
      rw [keeps, isFirst] at dropped
      simpa using dropped
  refine ⟨readBack, ?_⟩
  intro className parameters dependencies unspaced starts
  refine ⟨source_factory className parameters namespaceName dependencies, ?_, ?_⟩
  · exact resolve_marker (factory className parameters namespaceName dependencies).file trimmed
  · exact readBack _ className rfl unspaced starts

/-- A class directly in the namespace that is spelled like the keyword for namespaces. -/
theorem class_named_like_keyword_resolves_back :
    Name.trimSeparators "Gen" = "Gen" ∧
      (Name.NameScope.ofNamespace "Gen").resolve
          ((factory "Gen\\namespace" [] "Gen" ∅).file.relativeName "Gen\\namespace") =
        "Gen\\namespace" ∧
      (factory "Gen\\namespace" [] "Gen" ∅).file.relativeName "Gen\\namespace" = "namespace" := by
  have trimmed : Name.trimSeparators "Gen" = "Gen" := by decide +kernel
  refine ⟨trimmed, ?_, by decide +kernel⟩
  refine (printed_names_resolve_back trimmed).1 _ "Gen\\namespace" rfl (by decide +kernel) ?_
  intro rest direct
  have isRest : rest = "namespace" := by
    have characters := congrArg String.toList direct.below
    rw [Name.toList_join] at characters
    have parted : "Gen".toList ++ "\\namespace".toList =
        "Gen".toList ++ Name.separator :: rest.toList := characters
    have isBelow := List.append_cancel_left parted
    exact String.toList_injective (List.cons.inj isBelow).2.symm
  rw [isRest]
  decide +kernel

end Artifact

end FactoryProxy
