import FactoryProxy.Proofs.Artifact.Layout
import FactoryProxy.Proofs.Php.BlockComments
import FactoryProxy.Proofs.Reflection.CommentedTypes
import FactoryProxy.Proofs.Text.Pieces

/-!
Contract: the comment above `create`, which documents one parameter in each line.

A line is made of the exact text of a type and of a name. The types that get there hold no
slash, so none of them ends the comment, but a line break in a type is printed as one. A name
is what is left of its place in the constructor without leading ampersands, dollar signs and
white space, so a comment behind one of these belongs to the name, and its mark ends the
comment of the factory.

Owns: what a documented type holds, where the comment ends, and its lines.
-/

namespace FactoryProxy.Artifact

open Php (HoldsEnd commentEnd commentedPart codeLexeme LexerState)

variable {parameter : Parameter} {parameters : List Parameter}

/-! ## Documented types -/

/-- The type of a parameter without outer white space. -/
def trimmedHint? (parameter : Parameter) : Option String :=
  parameter.typeHint.map Text.trimBlank

/-- The documented type before `null` is added. -/
def baseType (parameter : Parameter) : String :=
  (trimmedHint? parameter).elim "mixed" (Text.trimStart (fun c => c == '?'))

theorem documentedType_cases (parameter : Parameter) :
    documentedType parameter = baseType parameter ∨
      documentedType parameter = baseType parameter ++ "|null" := by
  unfold documentedType baseType trimmedHint?
  cases parameter.typeHint.map Text.trimBlank with
  | none =>
      dsimp only [Option.elim]
      split
      · exact .inr rfl
      · exact .inl rfl
  | some hint =>
      dsimp only [Option.elim]
      split
      · exact .inr rfl
      · exact .inl rfl

/-- A documented type has the characters of the type, but for leading question marks, and
those of the two names that may stand for it or be added. -/
theorem mem_documentedType {c : Char} (member : c ∈ (documentedType parameter).toList) :
    c ∈ "mixed|null".toList ∨ ∃ hint, trimmedHint? parameter = some hint ∧ c ∈ hint.toList := by
  have inBase : c ∈ (baseType parameter).toList ∨ c ∈ "|null".toList := by
    rcases documentedType_cases parameter with isBase | isLonger
    · exact .inl (isBase ▸ member)
    · rwa [isLonger, String.toList_append, List.mem_append] at member
  rcases inBase with inBase | added
  · unfold baseType at inBase
    cases isHint : trimmedHint? parameter with
    | none =>
        rw [isHint] at inBase
        exact .inl (List.mem_append_left "|null".toList inBase)
    | some hint =>
        rw [isHint, Option.elim_some, Text.trimStart, String.toList_ofList] at inBase
        exact .inr ⟨hint, rfl, (List.dropWhile_suffix _).subset inBase⟩
  · exact .inl (List.mem_append_right "mixed".toList added)

theorem mem_documentedType_of_hint {c : Char} {hint : String}
    (isHint : trimmedHint? parameter = some hint) (member : c ∈ hint.toList) (noMark : c ≠ '?') :
    c ∈ (documentedType parameter).toList := by
  have inBase : c ∈ (baseType parameter).toList := by
    rw [baseType, isHint, Option.elim_some, Text.trimStart, String.toList_ofList]
    exact Text.mem_dropWhile member (by simpa using noMark)
  rcases documentedType_cases parameter with isBase | isLonger
  · rwa [isBase]
  · rw [isLonger, String.toList_append]
    exact List.mem_append_left _ inBase

/-- A type without a slash is documented without one. -/
theorem slash_notMem_of_hint (free : ∀ hint, parameter.typeHint = some hint → '/' ∉ hint.toList) :
    '/' ∉ (documentedType parameter).toList := by
  intro member
  rcases mem_documentedType member with named | ⟨hint, isHint, inside⟩
  · exact absurd named (by decide)
  · obtain ⟨written, isWritten, rfl⟩ := Option.map_eq_some_iff.mp isHint
    exact free written isWritten (Text.mem_of_mem_trim inside)

/-- The type of a parameter that the caller supplies ends no comment. -/
theorem slash_notMem_documentedType (builtin : parameter.isBuiltin = true) :
    '/' ∉ (documentedType parameter).toList := by
  refine slash_notMem_of_hint (fun hint isHint member => ?_)
  have noClass := (isBuiltin_iff parameter).mp builtin hint isHint
  rw [TypeHint.isBuiltin_of_mark (by decide) member] at noClass
  cases noClass

/-! ## The end of the comment -/

/-- Only the name in a line can hold the mark that ends the comment. -/
theorem holdsEnd_documentationLine (noSlash : '/' ∉ (documentedType parameter).toList) :
    HoldsEnd (documentationLine parameter).toList ↔ HoldsEnd parameter.name.toList := by
  have isLine : (documentationLine parameter).toList =
      "@param".toList ++ ' ' :: ((documentedType parameter).toList ++
        ' ' :: ([] ++ '$' :: parameter.name.toList)) := by
    have parts : "@param ".toList = "@param".toList ++ [' '] := by decide
    simp [documentationLine, parts]
  rw [isLine, Php.holdsEnd_append (by decide), Php.holdsEnd_append (by decide),
    Php.holdsEnd_append (by decide)]
  constructor
  · rintro (inTag | inType | inNothing | inName)
    · exact absurd inTag (by decide)
    · exact absurd inType.slash_mem noSlash
    · exact absurd inNothing (by decide)
    · exact inName
  · exact fun inName => .inr (.inr (.inr inName))

theorem holdsEnd_printedLine (noSlash : '/' ∉ (documentedType parameter).toList) :
    HoldsEnd (printedLine parameter).toList ↔ HoldsEnd parameter.name.toList := by
  have isLine : (printedLine parameter).toList =
      "\t *".toList ++ ' ' :: (documentationLine parameter).toList := by
    have parts : "\t * ".toList = "\t *".toList ++ [' '] := by decide
    simp [printedLine, parts]
  have inFront : ¬ HoldsEnd "\t *".toList := by decide
  rw [isLine, Php.holdsEnd_append (by decide), holdsEnd_documentationLine noSlash,
    or_iff_right inFront]

/-- Lines under each other, each ended by a line break. -/
theorem holdsEnd_lines (lines : List String) (rest : List Char) :
    HoldsEnd ((Text.concat (lines.map (· ++ "\n"))).toList ++ rest) ↔
      (∃ line ∈ lines, HoldsEnd line.toList) ∨ HoldsEnd rest := by
  induction lines with
  | nil => simp [Text.concat, Text.joinWith]
  | cons line lines inductionHypothesis =>
      have isText : (Text.concat ((line :: lines).map (· ++ "\n"))).toList ++ rest =
          line.toList ++ '\n' :: ((Text.concat (lines.map (· ++ "\n"))).toList ++ rest) := by
        rw [List.map_cons, Text.concat_cons]
        simp
      rw [isText, Php.holdsEnd_append (by decide), List.exists_mem_cons_iff, or_assoc]
      exact or_congr_right inductionHypothesis

theorem toList_documentationText (parameters : List Parameter) :
    (documentationText parameters).toList =
      '\n' :: ((Text.concat ((parameters.map printedLine).map (· ++ "\n"))).toList ++
        "\t ".toList) := by
  simp [documentationText, Function.comp_def]

theorem holdsEnd_documentationText
    (noSlash : ∀ parameter ∈ parameters, '/' ∉ (documentedType parameter).toList) :
    HoldsEnd (documentationText parameters).toList ↔
      ∃ parameter ∈ parameters, HoldsEnd parameter.name.toList := by
  have noEnd : ¬ HoldsEnd "\t ".toList := by decide
  rw [toList_documentationText, Php.holdsEnd_cons, holdsEnd_lines, or_iff_left noEnd]
  constructor
  · rintro (⟨isStar, -⟩ | ⟨line, isLine, inLine⟩)
    · exact absurd isStar (by decide)
    · obtain ⟨parameter, member, rfl⟩ := List.mem_map.mp isLine
      exact ⟨parameter, member, (holdsEnd_printedLine (noSlash parameter member)).mp inLine⟩
  · rintro ⟨parameter, member, inName⟩
    exact .inr ⟨_, List.mem_map_of_mem member,
      (holdsEnd_printedLine (noSlash parameter member)).mpr inName⟩

/-- The second star of the opening mark belongs to no closing mark. -/
theorem holdsEnd_star_documentationText (parameters : List Parameter) :
    HoldsEnd ('*' :: (documentationText parameters).toList) ↔
      HoldsEnd (documentationText parameters).toList := by
  rw [Php.holdsEnd_cons, toList_documentationText, List.head?_cons]
  exact or_iff_right (by simp)

/-- What is read at the opening mark is the comment exactly if its text does not hold the
closing mark. -/
theorem codeLexeme_documentation_iff (state : LexerState) (parameters : List Parameter)
    (rest : String) :
    codeLexeme state '/' ("**" ++ documentationText parameters ++ "*/" ++ rest).toList =
        ⟨⟨.comment, "/**" ++ documentationText parameters ++ "*/"⟩, state, rest.toList⟩ ↔
      ¬ HoldsEnd (documentationText parameters).toList := by
  have isText : ("**" ++ documentationText parameters ++ "*/" ++ rest).toList =
      '*' :: (('*' :: (documentationText parameters).toList) ++ commentEnd ++ rest.toList) := by
    simp [commentEnd]
  have isComment : "/**" ++ documentationText parameters ++ "*/" =
      String.ofList (['/', '*'] ++ '*' :: (documentationText parameters).toList ++
        commentEnd) := by
    apply String.toList_injective
    simp [commentEnd]
  rw [isText, isComment, Php.codeLexeme_comment_iff, holdsEnd_star_documentationText]

/-- The lines of all comments in an artifact. -/
def documentationOf (artifact : Artifact) : List String :=
  artifact.file.interfaces.flatMap (fun declared => declared.methods.flatMap Interface.Method.doc)

theorem documentationOf_ofClass (index : ClassIndex) (namespaceName : String)
    (declared : ClassDeclaration) :
    documentationOf (ofClass index namespaceName declared) =
      (callerParameters index declared).map documentationLine := by
  simp [documentationOf, ofClass, factory, Interface.SourceFile.ofInterface, creationMethod]

/-- No type that is documented ends a comment, and a line does exactly if the name in it
does. So the comment that is read at the printed opening mark ends at the printed closing
mark exactly if no name of a documented parameter holds the closing mark. Without documented
parameters there is no comment. -/
theorem comment_ends_where_printed_iff (index : ClassIndex) (namespaceName : String)
    (declared : ClassDeclaration) :
    let parameters := callerParameters index declared
    let artifact := ofClass index namespaceName declared
    let before := factoryHead declared.name namespaceName
    let behind := creationText declared.name parameters namespaceName
    documentationOf artifact = parameters.map documentationLine ∧
    (∀ parameter ∈ parameters, ¬ HoldsEnd (documentedType parameter).toList ∧
      (HoldsEnd (documentationLine parameter).toList ↔ HoldsEnd parameter.name.toList)) ∧
    (parameters = [] → artifact.source = before ++ behind) ∧
    (parameters ≠ [] →
      artifact.source =
        (before ++ "\t") ++ "/**" ++ documentationText parameters ++ "*/" ++ ("\n" ++ behind) ∧
      ∀ state : LexerState,
        codeLexeme state '/'
            ("**" ++ documentationText parameters ++ "*/" ++ ("\n" ++ behind)).toList =
          ⟨⟨.comment, "/**" ++ documentationText parameters ++ "*/"⟩, state,
            ("\n" ++ behind).toList⟩ ↔
        ∀ parameter ∈ parameters, ¬ HoldsEnd parameter.name.toList) := by
  intro parameters artifact before behind
  have noSlash : ∀ parameter ∈ parameters, '/' ∉ (documentedType parameter).toList :=
    fun _ member => slash_notMem_documentedType (isBuiltin_of_mem_callerParameters member)
  refine ⟨documentationOf_ofClass index namespaceName declared, ?_, ?_, ?_⟩
  · intro parameter member
    exact ⟨fun holds => noSlash parameter member holds.slash_mem,
      holdsEnd_documentationLine (noSlash parameter member)⟩
  · intro undocumented
    have printsNothing : Interface.printDoc (parameters.map documentationLine) = "" := by
      rw [undocumented]
      rfl
    show (factory _ parameters _ _).source = _
    rw [source_factory_parts, printsNothing, String.append_empty]
  · intro documented
    refine ⟨source_documented documented _, ?_⟩
    intro state
    rw [codeLexeme_documentation_iff, holdsEnd_documentationText noSlash]
    simp only [not_exists, not_and]

/-- What is printed between the marks for a constructor with three documented parameters. -/
def circleDocumentation : String :=
  "\n\t * @param int|null $count\n\t * @param mixed $label\n\t * @param string $names\n\t "

/-- The comment of a class that is its own parent through others. -/
theorem comment_of_circle_member_ends :
    ∃ behind : String,
      codeLexeme ⟨.code, []⟩ '/' ("**" ++ circleDocumentation ++ "*/" ++ behind).toList =
        ⟨⟨.comment, "/**" ++ circleDocumentation ++ "*/"⟩, ⟨.code, []⟩, behind.toList⟩ := by
  have documented : callerParameters circleIndex circleClasses[2] ≠ [] := by decide +kernel
  have isText : documentationText (callerParameters circleIndex circleClasses[2]) =
      circleDocumentation := by decide +kernel
  have plain : ∀ parameter ∈ callerParameters circleIndex circleClasses[2],
      ¬ HoldsEnd parameter.name.toList := by decide +kernel
  have ends := (((comment_ends_where_printed_iff circleIndex "G" circleClasses[2]).2.2.2
    documented).2 ⟨.code, []⟩).mpr plain
  rw [isText] at ends
  exact ⟨_, ends⟩

/-- The artifacts in the namespace for the classes of a source file by itself. -/
def artifactsIn (namespaceName source : String) : List Artifact :=
  let declared := Reflection.declarationsIn ⟨"a.php"⟩ source
  match ClassIndex.ofClasses declared with
  | .ok index => declared.map (ofClass index namespaceName)
  | .error _ => []

set_option maxRecDepth 100000 in
/-- A comment behind an ampersand or a dollar sign is part of the name, and ends the comment
above `create`. -/
theorem comment_in_name_ends_documentation :
    let source := "<?php class A \x7b function __construct(private & /* c */ $x) \x7b\x7d \x7d"
    (Php.SourceFile.ofText source).wellFormed = true ∧
      (artifactsIn "G" source).map documentationOf = [["@param mixed $/* c */ $x"]] ∧
      ((artifactsIn "G" source).flatMap (fun artifact => Php.scan artifact.source)).find?
          (fun token => token.kind == .comment) =
        some ⟨.comment, "/**\n\t * @param mixed $/* c */"⟩ := by
  decide +kernel

/-! ## The lines of the comment -/

/-- Lines under each other are cut at their ends and at the breaks inside them. -/
theorem pieces_lines (lines : List String) (rest : List Char) :
    Text.pieces (· == '\n') ((Text.concat (lines.map (· ++ "\n"))).toList ++ rest) =
      lines.flatMap (fun line => Text.pieces (· == '\n') line.toList) ++
        Text.pieces (· == '\n') rest := by
  induction lines with
  | nil => rfl
  | cons line lines inductionHypothesis =>
      have isText : (Text.concat ((line :: lines).map (· ++ "\n"))).toList ++ rest =
          line.toList ++ '\n' :: ((Text.concat (lines.map (· ++ "\n"))).toList ++ rest) := by
        rw [List.map_cons, Text.concat_cons]
        simp
      rw [isText, Text.pieces_append (by decide), inductionHypothesis, List.flatMap_cons,
        List.append_assoc]

theorem pieces_documentationText (parameters : List Parameter) :
    Text.pieces (· == '\n') (documentationText parameters).toList =
      [] :: (parameters.flatMap (fun parameter =>
        Text.pieces (· == '\n') (printedLine parameter).toList)) ++ ["\t ".toList] := by
  rw [toList_documentationText, Text.pieces, if_pos (by decide), pieces_lines, List.flatMap_map]
  rfl

theorem toList_printedLine (parameter : Parameter) :
    (printedLine parameter).toList =
      "\t * @param ".toList ++ (documentedType parameter).toList ++ " $".toList ++
        parameter.name.toList := by
  have opening : "\t * @param ".toList = "\t * ".toList ++ "@param ".toList := by decide
  simp [printedLine, documentationLine, opening]

/-- A line has no break inside it exactly if neither the type nor the name has one. -/
theorem lineBreak_notMem_printedLine :
    '\n' ∉ (printedLine parameter).toList ↔
      (∀ hint, trimmedHint? parameter = some hint → '\n' ∉ hint.toList) ∧
        '\n' ∉ parameter.name.toList := by
  rw [toList_printedLine]
  simp only [List.mem_append, not_or]
  constructor
  · rintro ⟨⟨⟨-, notInType⟩, -⟩, notInName⟩
    refine ⟨?_, notInName⟩
    intro hint isHint member
    exact notInType (mem_documentedType_of_hint isHint member (by decide))
  · rintro ⟨notInHint, notInName⟩
    refine ⟨⟨⟨by decide, ?_⟩, by decide⟩, notInName⟩
    intro member
    rcases mem_documentedType member with named | ⟨hint, isHint, inside⟩
    · exact absurd named (by decide)
    · exact notInHint hint isHint inside

theorem pieces_documentationText_of_free
    (free : ∀ parameter ∈ parameters, '\n' ∉ (printedLine parameter).toList) :
    Text.pieces (· == '\n') (documentationText parameters).toList =
      [] :: parameters.map (fun parameter => (printedLine parameter).toList) ++
        ["\t ".toList] := by
  have ofLine : ∀ parameter ∈ parameters,
      Text.pieces (· == '\n') (printedLine parameter).toList =
        [(printedLine parameter).toList] := by
    intro parameter member
    apply Text.pieces_of_free
    intro c inLine
    rw [beq_eq_false_iff_ne]
    rintro rfl
    exact free parameter member inLine
  rw [pieces_documentationText, List.flatMap_congr ofLine, ← List.map_eq_flatMap]

/-- The lines of a text are the printed ones if its pieces are their characters. -/
theorem splitBy_eq_printedLines_iff (text : List Char) (parameters : List Parameter) :
    Text.splitBy (· == '\n') (String.ofList text) =
        "" :: parameters.map (fun parameter =>
          "\t" ++ " * @param " ++ documentedType parameter ++ " $" ++ parameter.name) ++
          ["\t "] ↔
      Text.pieces (· == '\n') text =
        [] :: parameters.map (fun parameter => (printedLine parameter).toList) ++
          ["\t ".toList] := by
  have isLine : ∀ parameter : Parameter,
      "\t" ++ " * @param " ++ documentedType parameter ++ " $" ++ parameter.name =
        printedLine parameter := by
    intro parameter
    apply String.toList_injective
    rw [toList_printedLine]
    simp
  have isExpected : "" :: parameters.map (fun parameter =>
        "\t" ++ " * @param " ++ documentedType parameter ++ " $" ++ parameter.name) ++ ["\t "] =
      ([] :: parameters.map (fun parameter => (printedLine parameter).toList) ++
        ["\t ".toList]).map String.ofList := by
    simp only [isLine]
    simp
  have injective : Function.Injective String.ofList := fun _ _ same => String.ofList_injective same
  rw [isExpected, Text.splitBy, String.toList_ofList]
  exact (List.map_injective_iff.mpr injective).eq_iff

/-- A text has the printed lines exactly if it is that of the comment and no line is broken. -/
theorem pieces_eq_lines_iff (text : List Char) (parameters : List Parameter) :
    Text.pieces (· == '\n') text =
        [] :: parameters.map (fun parameter => (printedLine parameter).toList) ++
          ["\t ".toList] ↔
      text = (documentationText parameters).toList ∧
        ∀ parameter ∈ parameters, '\n' ∉ (printedLine parameter).toList := by
  constructor
  · intro isCut
    have lineFree : ∀ parameter ∈ parameters, '\n' ∉ (printedLine parameter).toList := by
      intro parameter member breaks
      have isPiece : (printedLine parameter).toList ∈ Text.pieces (· == '\n') text := by
        rw [isCut]
        exact List.mem_append_left _ (List.mem_cons_of_mem _ (List.mem_map_of_mem member))
      exact absurd (Text.free_of_mem_pieces isPiece '\n' breaks) (by decide)
    exact ⟨Text.pieces_inj (isCut.trans (pieces_documentationText_of_free lineFree).symm),
      lineFree⟩
  · rintro ⟨rfl, lineFree⟩
    exact pieces_documentationText_of_free lineFree

/-- The comment read at the printed opening mark has one line for each documented parameter,
in their order, exactly if no type has a line break between its first and its last character
and no name has one or holds the closing mark. Where no name holds the mark, a break only
cuts the line in which it stands. -/
theorem comment_has_line_per_parameter_iff (index : ClassIndex) (namespaceName : String)
    (declared : ClassDeclaration) (documented : callerParameters index declared ≠ []) :
    let parameters := callerParameters index declared
    ∃ behind : String,
      (ofClass index namespaceName declared).source =
        factoryHead declared.name namespaceName ++ "\t/**" ++ behind ∧
      ((∀ parameter ∈ parameters, ¬ HoldsEnd parameter.name.toList) →
        Text.pieces (· == '\n') (commentedPart behind.toList) =
          [] :: (parameters.flatMap (fun parameter =>
            Text.pieces (· == '\n') (printedLine parameter).toList)) ++ ["\t ".toList]) ∧
      (Text.splitBy (· == '\n') (String.ofList (commentedPart behind.toList)) =
          "" :: parameters.map (fun parameter =>
            "\t" ++ " * @param " ++ documentedType parameter ++ " $" ++ parameter.name) ++
            ["\t "] ↔
        ∀ parameter ∈ parameters,
          (∀ hint, trimmedHint? parameter = some hint → '\n' ∉ hint.toList) ∧
          '\n' ∉ parameter.name.toList ∧ ¬ HoldsEnd parameter.name.toList) := by
  intro parameters
  have noSlash : ∀ parameter ∈ parameters, '/' ∉ (documentedType parameter).toList :=
    fun _ member => slash_notMem_documentedType (isBuiltin_of_mem_callerParameters member)
  let rest := "\n" ++ creationText declared.name parameters namespaceName
  have isBehind : (documentationText parameters ++ "*/" ++ rest).toList =
      (documentationText parameters).toList ++ commentEnd ++ rest.toList := by
    simp [commentEnd]
  have isWhole : commentedPart (documentationText parameters ++ "*/" ++ rest).toList =
      (documentationText parameters).toList ↔
        ∀ parameter ∈ parameters, ¬ HoldsEnd parameter.name.toList := by
    rw [isBehind, Php.commentedPart_eq_iff, holdsEnd_documentationText noSlash]
    simp only [not_exists, not_and]
  refine ⟨documentationText parameters ++ "*/" ++ rest, ?_, ?_, ?_⟩
  · have opening : "\t/**" = "\t" ++ "/**" := by decide
    show (factory _ parameters _ _).source = _
    rw [source_documented documented, opening]
    simp only [String.append_assoc, rest]
    rfl
  · intro plain
    rw [isWhole.mpr plain, pieces_documentationText]
  · rw [splitBy_eq_printedLines_iff, pieces_eq_lines_iff, isWhole, ← forall₂_and]
    refine forall₂_congr (fun parameter _ => ?_)
    rw [lineBreak_notMem_printedLine, and_comm, and_assoc]

/-- The comment for three parameters has three lines. -/
theorem comment_of_circle_member_lines :
    ∃ behind : String,
      (ofClass circleIndex "G" circleClasses[2]).source =
        factoryHead "E" "G" ++ "\t/**" ++ behind ∧
      Text.splitBy (· == '\n') (String.ofList (commentedPart behind.toList)) =
        ["", "\t * @param int|null $count", "\t * @param mixed $label",
          "\t * @param string $names", "\t "] := by
  have documented : callerParameters circleIndex circleClasses[2] ≠ [] := by decide +kernel
  have laidOut : ∀ parameter ∈ callerParameters circleIndex circleClasses[2],
      (∀ hint, trimmedHint? parameter = some hint → '\n' ∉ hint.toList) ∧
      '\n' ∉ parameter.name.toList ∧ ¬ HoldsEnd parameter.name.toList := by
    have ofOption : ∀ parameter ∈ callerParameters circleIndex circleClasses[2],
        (trimmedHint? parameter).all (fun hint => decide ('\n' ∉ hint.toList)) = true ∧
        '\n' ∉ parameter.name.toList ∧ ¬ HoldsEnd parameter.name.toList := by decide +kernel
    intro parameter member
    obtain ⟨inHint, inName⟩ := ofOption parameter member
    refine ⟨?_, inName⟩
    intro hint isHint
    rw [isHint] at inHint
    exact of_decide_eq_true inHint
  obtain ⟨behind, isSource, -, cut⟩ :=
    comment_has_line_per_parameter_iff circleIndex "G" circleClasses[2] documented
  refine ⟨behind, isSource, (cut.mpr laidOut).trans ?_⟩
  decide +kernel

set_option maxRecDepth 100000 in
/-- A line break behind the question mark of a type is printed in the comment. -/
theorem line_break_in_type_cuts_line :
    let source := "<?php class A \x7b function __construct(?\nint $x) \x7b\x7d \x7d"
    (Php.SourceFile.ofText source).wellFormed = true ∧
      (artifactsIn "G" source).map documentationOf = [["@param \nint|null $x"]] ∧
      (((artifactsIn "G" source).flatMap (fun artifact => Php.scan artifact.source)).find?
          (fun token => token.kind == .comment)).map
          (fun token => Text.splitBy (· == '\n') token.text) =
        some ["/**", "\t * @param ", "int|null $x", "\t */"] := by
  decide +kernel

end FactoryProxy.Artifact
