import FactoryProxy.Proofs.Artifact.Documentation
import FactoryProxy.Proofs.Interface.RelativeNames
import FactoryProxy.Proofs.Php.PlainFiles

/-!
Contract: generated code, read as the source file of a class.

The text of a marker and that of a factory with plain parameters are those of files with one
interface. All of it is read, and what it declares is the artifact: an interface of its name that
extends the marker, or nothing in the case of the marker.

The names are made of words that can be read, keywords among them. A label of the language may
also have a white space character beyond ASCII in it, and is cut there when it is read.

Owns: the tokens of generated files, and what their texts declare.
-/

namespace FactoryProxy.Artifact

open Php (IsQualified IsPlainParameter IsName IsPhrase InterfaceFile WrittenParameter HoldsEnd
  isIdentifier)
open Php.Expression (tokensText)

variable {namespaceName className : String} {parameters : List Parameter}

/-! ## Names -/

theorem isIdentifier_factoryName (isClass : IsQualified className) :
    isIdentifier (factoryName className) = true :=
  Php.isIdentifier_append isClass.stripped (List.all_eq_true.mp (by decide))

theorem isQualified_qualifiedName {name : String} (isNamespace : IsQualified namespaceName)
    (isNamed : isIdentifier name = true) : IsQualified (qualifiedName namespaceName name) := by
  have isSome : ¬ namespaceName.isEmpty = true :=
    fun isEmpty => isNamespace.ne_empty (String.isEmpty_iff.mp isEmpty)
  unfold qualifiedName
  rw [isNamespace.trimmed]
  dsimp only
  rw [if_neg isSome]
  exact isNamespace.join isNamed

/-- A printed name has tokens, and they are read as a name. -/
theorem exists_printedTokens {name : String} (namespaceName : String)
    (isQualified : IsQualified name) :
    ∃ tokens, tokensText tokens = printedName namespaceName name ∧ IsName tokens ∧
      IsPhrase tokens := by
  unfold printedName
  by_cases isShort : ∃ rest, Interface.SourceFile.IsDirect namespaceName name rest
  · obtain ⟨rest, direct⟩ := isShort
    rw [Interface.SourceFile.relativeName_of_direct direct]
    have isWord : isIdentifier rest = true := by
      rw [direct.below] at isQualified
      exact isQualified.below direct.isSegment
    obtain ⟨tokens, isText, isLocal, phrase, -⟩ := (Php.isQualified_singleton isWord).written
    exact ⟨tokens, isText, .inl isLocal, phrase⟩
  · rw [Interface.SourceFile.relativeName_of_not_direct (fun rest direct => isShort ⟨rest, direct⟩)]
    obtain ⟨tokens, rfl, isLocal, phrase, ⟨first, rest, isTokens, isWord⟩, -⟩ := isQualified.written
    refine ⟨.backslash :: tokens, ?_, .inr ⟨[], tokens, rfl, Php.isQuiet_nil, isLocal⟩,
      ⟨⟨_, _, rfl, .inr rfl⟩, fun {behind} others ends => ?_⟩⟩
    · rw [Php.tokensText_cons]
      rfl
    · refine .cons (Php.Token.isPlain_of_looksPlain (by decide)) ?_ (phrase.plain others ends)
      rw [isTokens]
      show Php.Token.fitsBefore .backslash first = true
      unfold Php.Token.fitsBefore
      rw [isWord]
      rfl

/-! ## Files -/

/-- The file has the text of the artifact, and its names. -/
structure Prints (artifact : Artifact) (file : InterfaceFile) : Prop where
  valid : file.Valid
  plain : file.Plain
  text : tokensText file.tokens = artifact.source
  isNamespace : tokensText file.namespaceName = artifact.namespaceName
  isNamed : file.name = artifact.name

theorem fileHead_interface (isNamespace : IsQualified namespaceName) :
    fileHead namespaceName ++ "interface " =
      "<?php\ndeclare(strict_types=1);\n\nnamespace " ++ namespaceName ++ ";\n\ninterface " := by
  have isSome : ¬ namespaceName.isEmpty = true :=
    fun isEmpty => isNamespace.ne_empty (String.isEmpty_iff.mp isEmpty)
  have opening : "<?php\ndeclare(strict_types=1);\n\nnamespace " =
      "<?php\ndeclare(strict_types=1);\n" ++ "\nnamespace " := by decide
  have closing : ";\n\ninterface " = ";\n" ++ "\n" ++ "interface " := by decide
  unfold fileHead
  rw [if_neg isSome]
  simp only [opening, closing, String.append_assoc]

/-- The marker is a file without a parent and a method. -/
theorem exists_markerFile (isNamespace : IsQualified namespaceName) :
    ∃ file, Prints (marker namespaceName) file ∧ file.parent = none ∧ file.parameters = [] := by
  obtain ⟨tokens, isText, isLocal, phrase, -, unbroken⟩ := isNamespace.written
  have isNamed : isIdentifier markerName = true := by decide
  refine ⟨⟨tokens, markerName, none, none⟩, ⟨⟨isLocal, unbroken, nofun, nofun⟩,
    ⟨phrase, isNamed, nofun, nofun⟩, ?_, isText, rfl⟩, rfl, rfl⟩
  have closing : "\n\x7b\n\x7d\n" = "\n\x7b" ++ "\n" ++ "\x7d\n" := by decide
  rw [InterfaceFile.text_eq, isText, source_marker_parts, fileHead_interface isNamespace, closing]
  simp only [String.append_assoc, Option.elim_none, String.empty_append]
  rfl

/-- The comment above `create`, if there is one. -/
def comment? (parameters : List Parameter) : Option String :=
  if parameters = [] then none else some ("*" ++ documentationText parameters)

/-- What is printed in front of `create` is the comment. -/
theorem printDoc_comment (parameters : List Parameter) :
    Interface.printDoc (parameters.map documentationLine) ++ "\t" =
      "\t" ++ (comment? parameters).elim "" (fun text => "/*" ++ text ++ "*/\n\t") := by
  unfold comment?
  split
  · rename_i isEmpty
    rw [isEmpty]
    rfl
  · rename_i documented
    have opening : "\t/**" = "\t" ++ "/*" ++ "*" := by decide
    have closing : "*/\n\t" = "*/\n" ++ "\t" := by decide
    rw [printDoc_documented documented, Option.elim_some, opening, closing]
    simp only [String.append_assoc]

/-- A parameter as it is read: its name without marks and white space in front. -/
def readParameter (parameter : ParameterDeclaration) : Php.ParameterSyntax where
  name := Text.trimStart Php.Grammar.isNameMark ("$" ++ parameter.name)
  typeHint := parameter.typeHint
  defaultValue := none
  byReference := parameter.byReference
  variadic := parameter.variadic

/-- The parameters of `create` as they are read. -/
def readParameters (parameters : List Parameter) : List Php.ParameterSyntax :=
  (parameters.map Parameter.toParameterDeclaration).map readParameter

theorem holdsEnd_comment?
    (plain : ∀ parameter ∈ parameters, IsPlainParameter parameter.toParameterDeclaration) :
    ∀ text ∈ comment? parameters, ¬ HoldsEnd text.toList := by
  intro text isComment
  unfold comment? at isComment
  split at isComment
  · cases isComment
  · obtain rfl := Option.some.inj isComment
    have noSlash : ∀ parameter ∈ parameters, '/' ∉ (documentedType parameter).toList :=
      fun parameter member => slash_notMem_of_hint
        (fun hint isHint => ((plain parameter member).isHint hint isHint).slash_notMem)
    intro holds
    rw [String.toList_append] at holds
    obtain ⟨parameter, member, inName⟩ := (holdsEnd_documentationText noSlash).mp
      ((holdsEnd_star_documentationText parameters).mp holds)
    exact absurd (Php.isWordPart_of_isIdentifier (plain parameter member).isNamed _
      inName.slash_mem) (by decide)

/-- The method `create` with its parameters and its result as they are written. -/
def creationWritten (parameters : List Parameter) (list : List WrittenParameter)
    (result : List Php.Token) : Php.WrittenMethod :=
  ⟨comment? parameters, "create", list, result⟩

/-- A factory with its namespace, its parent and its method as they are written. -/
def factoryFile (className : String) (named parent : List Php.Token)
    (method : Php.WrittenMethod) : InterfaceFile :=
  ⟨named, factoryName className, some parent, some method⟩

/-- The file of a factory has its text. -/
theorem tokensText_factory {named parent result : List Php.Token} {list : List WrittenParameter}
    (isNamespace : IsQualified namespaceName) (isNamed : tokensText named = namespaceName)
    (isParent : tokensText parent =
      printedName namespaceName (qualifiedName namespaceName markerName))
    (isResult : tokensText result = printedName namespaceName className)
    (areDeclared : list.map WrittenParameter.declaration =
      parameters.map Parameter.toParameterDeclaration) (dependencies : OrderedSet Path) :
    tokensText (factoryFile className named parent
        (creationWritten parameters list result)).tokens =
      (factory className parameters namespaceName dependencies).source := by
  have opening : "\n\x7b\n" = "\n\x7b" ++ "\n" := by decide
  have declaring : "\tpublic function create(" =
      "\t" ++ ("public function " ++ ("create" ++ "(")) := by decide
  have closing : ";\n\x7d\n" = ";\n" ++ "\x7d\n" := by decide
  have isLead : "\n\t" = "\n" ++ "\t" := by decide
  have isHead : ∀ rest, fileHead namespaceName ++ ("interface " ++ rest) =
      "<?php\ndeclare(strict_types=1);\n\nnamespace " ++ (namespaceName ++
        (";\n\ninterface " ++ rest)) := by
    intro rest
    rw [← String.append_assoc, fileHead_interface isNamespace]
    simp only [String.append_assoc]
  have isComment : ∀ rest, Interface.printDoc (parameters.map documentationLine) ++ ("\t" ++ rest) =
      "\t" ++ ((comment? parameters).elim "" (fun text => "/*" ++ text ++ "*/\n\t") ++ rest) := by
    intro rest
    rw [← String.append_assoc, printDoc_comment, String.append_assoc]
  have isBody : (factoryFile className named parent
      (creationWritten parameters list result)).body =
        (creationWritten parameters list result).tokens := rfl
  -- `rw` would compare the texts character by character after each step
  rewrite [InterfaceFile.text_eq, source_factory_parts, isBody, Php.WrittenMethod.text_eq]
  unfold factoryFile creationWritten
  dsimp only
  rewrite [isNamed, Option.elim_some, isParent, isResult, areDeclared]
  unfold factoryHead creationText
  simp only [opening, declaring, closing, isLead]
  simp only [String.append_assoc, isHead, isComment]

/-- The factory is a file with the marker as parent and with the method `create`. -/
theorem exists_factoryFile (isNamespace : IsQualified namespaceName)
    (isClass : IsQualified className)
    (plain : ∀ parameter ∈ parameters, IsPlainParameter parameter.toParameterDeclaration)
    (dependencies : OrderedSet Path) :
    ∃ file parent, Prints (factory className parameters namespaceName dependencies) file ∧
      file.parent = some parent ∧
      tokensText parent =
        printedName namespaceName (qualifiedName namespaceName markerName) ∧
      file.parameters = readParameters parameters := by
  have isMarker : isIdentifier markerName = true := by decide
  obtain ⟨tokens, isText, isLocal, phrase, -, unbroken⟩ := isNamespace.written
  obtain ⟨parent, isParent, parentName, parentPhrase⟩ := exists_printedTokens namespaceName
    (isQualified_qualifiedName isNamespace isMarker)
  obtain ⟨result, isResult, resultName, resultPhrase⟩ :=
    exists_printedTokens namespaceName isClass
  obtain ⟨list, areDeclared, areWritten⟩ := Php.exists_writtenList
    (List.forall_mem_map.mpr plain : ∀ declared ∈ parameters.map Parameter.toParameterDeclaration,
      IsPlainParameter declared)
  have isCreate : isIdentifier "create" = true ∧ Text.fold "create" ≠ "__construct" := by decide
  have isValid : (creationWritten parameters list result).Valid :=
    ⟨fun written member => (areWritten written member).1, .inl (.name resultName), isCreate.2⟩
  have isPlain : (creationWritten parameters list result).Plain :=
    ⟨holdsEnd_comment? plain, isCreate.1, fun written member => (areWritten written member).2,
      resultPhrase⟩
  have fileValid : (factoryFile className tokens parent
      (creationWritten parameters list result)).Valid :=
    ⟨isLocal, unbroken, fun _ member => Option.some.inj member ▸ parentName,
      fun _ member => Option.some.inj member ▸ isValid⟩
  have filePlain : (factoryFile className tokens parent
      (creationWritten parameters list result)).Plain :=
    ⟨phrase, isIdentifier_factoryName isClass,
      fun _ member => Option.some.inj member ▸ parentPhrase,
      fun _ member => Option.some.inj member ▸ isPlain⟩
  refine ⟨_, parent, ⟨fileValid, filePlain, ?_, isText, rfl⟩, rfl, isParent, ?_⟩
  · exact tokensText_factory isNamespace isText isParent isResult areDeclared dependencies
  · rw [readParameters, ← areDeclared, List.map_map]
    rfl

/-! ## Reflection -/

/-- The rules of the language take all of the text: its statements one after the other, and in
braces members one after the other, with the given parameters in parentheses. -/
def IsReadThroughout (text : String) (statements : List (Option Php.Statement))
    (parameters : List Php.ParameterSyntax) : Prop :=
  ∃ nodes, Php.Grouped.ofTokens (Php.scan text) = ⟨nodes, true⟩ ∧
    Php.Reader.Consists (Php.Grammar.statement nodes) nodes statements ∧
    ∀ node ∈ nodes, node.isGroup .curly = true → InterfaceFile.ReadInside node.inner parameters

/-- The artifact as a declaration, below the given interfaces. -/
def declaredAs (artifact : Artifact) (parents : List String) (path : Path) : ClassDeclaration where
  name := artifact.qualified
  kind := .interfaceKind
  isAbstract := false
  parent := none
  interfaces := parents
  constructor := none
  file := path
  line := 6

/-- The text of the artifact is read throughout, without a syntax error, and declares the
artifact alone. -/
structure ReflectsBack (artifact : Artifact) (parents : List String)
    (parameters : List Parameter) : Prop where
  wellFormed : (Php.SourceFile.ofText artifact.source).wellFormed = true
  throughout : ∃ statements, IsReadThroughout artifact.source statements (readParameters parameters)
  declares : ∀ path, Reflection.declarationsIn path artifact.source =
    [artifact.declaredAs parents path]

theorem Prints.reflectsBack {artifact : Artifact} {file : InterfaceFile} {parents : List String}
    (prints : Prints artifact file) (isNamespace : IsQualified artifact.namespaceName)
    (isNamed : isIdentifier artifact.name = true)
    (isSignature : file.parameters = readParameters parameters)
    (areParents : (file.parent.map tokensText).toList.map
      (Name.NameScope.ofNamespace artifact.namespaceName).resolve = parents) :
    ReflectsBack artifact parents parameters := by
  have isScanned := prints.plain.scan
  have isRead := prints.valid.ofText isScanned
  rw [prints.text] at isScanned isRead
  refine ⟨by rw [isRead], ?_, fun path => ?_⟩
  · obtain ⟨nodes, grouped, consists, inside⟩ := prints.valid.reads
    rw [isSignature] at inside
    exact ⟨_, nodes, by rw [isScanned, grouped], consists, inside⟩
  · have isQualified : Name.trimSeparators artifact.qualified = artifact.qualified :=
      (isQualified_qualifiedName isNamespace isNamed).trimmed
    have isDeclared : Reflection.declarationsIn path artifact.source =
        [Reflection.declarationOf path (.ofNamespace artifact.namespaceName) file.declared] := by
      unfold Reflection.declarationsIn Reflection.declarationsOf
      rw [isRead, prints.isNamespace]
      rfl
    have isName : (Name.NameScope.ofNamespace artifact.namespaceName).qualify file.name =
        artifact.qualified := by
      rw [prints.isNamed]
      rfl
    rw [isDeclared]
    unfold Reflection.declarationOf InterfaceFile.declared declaredAs
    simp [isName, isQualified, areParents]

/-- Generated code reflects back. For names of words that can be read, and parameters of no type
or of builtin ones without default values, the text of the marker and that of a factory are read
throughout without a syntax error. Each declares one interface, which has the full name of the
artifact and no constructor, and extends the marker or, in the case of the marker, nothing. -/
theorem generated_code_reflects_back (isNamespace : IsQualified namespaceName)
    (isClass : IsQualified className)
    (plain : ∀ parameter ∈ parameters, IsPlainParameter parameter.toParameterDeclaration)
    (dependencies : OrderedSet Path) :
    ReflectsBack (marker namespaceName) [] [] ∧
      ReflectsBack (factory className parameters namespaceName dependencies)
        [(marker namespaceName).qualified] parameters := by
  have isMarker : isIdentifier markerName = true := by decide
  obtain ⟨markerFile, ofMarker, noParent, noParameters⟩ := exists_markerFile isNamespace
  obtain ⟨factoryFile, parent, ofFactory, isParent, isText, isSignature⟩ :=
    exists_factoryFile isNamespace isClass plain dependencies
  refine ⟨ofMarker.reflectsBack isNamespace isMarker noParameters ?_,
    ofFactory.reflectsBack isNamespace (isIdentifier_factoryName isClass) isSignature ?_⟩
  · rw [noParent]
    rfl
  · have isResolved := resolve_marker
      (Interface.SourceFile.ofInterface namespaceName ⟨"", [], []⟩) isNamespace.trimmed
    rw [isParent, Option.map_some, isText]
    exact congrArg List.singleton isResolved

/-- Two parameters: a nullable one, and a variadic one that is passed by reference. -/
def plainParameters : List Parameter := [
  ⟨⟨"count", some "? int", none, false, false⟩, false⟩,
  ⟨⟨"labels", some "String |array", none, true, true⟩, true⟩]

/-- A factory with two parameters for a class of another namespace. -/
theorem factory_of_labels_reflects_back :
    (∀ parameter ∈ plainParameters, IsPlainParameter parameter.toParameterDeclaration) ∧
      ReflectsBack (marker "App\\Gen") [] [] ∧
      ReflectsBack (factory "App\\Shape\\Label" plainParameters "App\\Gen" ∅)
        [(marker "App\\Gen").qualified] plainParameters := by
  have isNamespace : IsQualified "App\\Gen" := ⟨"App", ["Gen"], by decide, by decide⟩
  have isClass : IsQualified "App\\Shape\\Label" :=
    ⟨"App", ["Shape", "Label"], by decide, by decide⟩
  have nullable : Php.IsBuiltinHint "? int" :=
    .inr ⟨" ", "int", by decide, by decide, .name (by decide)⟩
  have inUnion : Php.IsBuiltinHint "String |array" :=
    .inl (@Php.IsBuiltinUnion.more "String" " " "" "array" (by decide) (by decide) (by decide)
      (.name (by decide)))
  have plain : ∀ parameter ∈ plainParameters,
      IsPlainParameter parameter.toParameterDeclaration := by
    simp only [plainParameters, List.forall_mem_cons, List.not_mem_nil, false_imp_iff,
      implies_true, and_true]
    exact ⟨⟨by decide, by rintro _ ⟨⟩; exact nullable, rfl⟩,
      ⟨by decide, by rintro _ ⟨⟩; exact inUnion, rfl⟩⟩
  exact ⟨plain, generated_code_reflects_back isNamespace isClass plain ∅⟩

set_option maxRecDepth 100000 in
/-- A no-break space belongs to a label of the language, but not to the name that is read. -/
theorem wide_space_in_namespace_is_dropped :
    let artifact := marker "Gen\u00a0"
    Php.isLabel "Gen\u00a0" = true ∧
      (Php.SourceFile.ofText artifact.source).wellFormed = true ∧
      (Reflection.declarationsIn ⟨"test.php"⟩ artifact.source).map ClassDeclaration.name =
        ["Gen\\IGeneratedFactory"] ∧
      artifact.qualified = "Gen\u00a0\\IGeneratedFactory" ∧
      artifact.qualified ≠ "Gen\\IGeneratedFactory" := by
  decide +kernel

end FactoryProxy.Artifact
