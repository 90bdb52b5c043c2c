import FactoryProxy.Artifact.Basic
import FactoryProxy.Proofs.Artifact.Creation

/-!
Contract: the texts of generated files, cut where their parts meet.

Owns: what stands before the interface, before its members and in the signature of `create`,
and the comment as the text between its two marks.
-/

namespace FactoryProxy.Artifact

variable {namespaceName className : String} {parameters : List Parameter}

/-! ## The parts of a file -/

/-- A name as it is printed in a file of the namespace. -/
def printedName (namespaceName name : String) : String :=
  (Interface.SourceFile.ofInterface namespaceName ⟨"", [], []⟩).relativeName name

/-- What stands before the interface. -/
def fileHead (namespaceName : String) : String :=
  "<?php\ndeclare(strict_types=1);\n" ++
    (if namespaceName.isEmpty then "" else "\nnamespace " ++ namespaceName ++ ";\n") ++ "\n"

/-- What stands before the member of a factory. -/
def factoryHead (className namespaceName : String) : String :=
  fileHead namespaceName ++ "interface " ++ factoryName className ++ " extends " ++
    printedName namespaceName (qualifiedName namespaceName markerName) ++ "\n\x7b\n"

/-- The signature of `create` and the end of the file. -/
def creationText (className : String) (parameters : List Parameter) (namespaceName : String) :
    String :=
  "\tpublic function create(" ++
    Text.joinWith ", " ((parameters.map Parameter.toParameterDeclaration).map
      Interface.printParameter) ++
    "): " ++ printedName namespaceName className ++ ";\n\x7d\n"

theorem source_factory_parts (dependencies : OrderedSet Path) :
    (factory className parameters namespaceName dependencies).source =
      factoryHead className namespaceName ++
        Interface.printDoc (parameters.map documentationLine) ++
        creationText className parameters namespaceName := by
  have opening : "<?php\ndeclare(strict_types=1);\n" =
      "<?php\n" ++ "declare(strict_types=1);\n" := by decide
  have closing : ";\n\x7d\n" = ";\n" ++ "\x7d\n" := by decide
  unfold source Interface.SourceFile.render factory Interface.SourceFile.ofInterface factoryHead
    fileHead creationText printedName Interface.SourceFile.ofInterface
  simp only [List.map_cons, List.map_nil, Text.concat, Text.joinWith, Interface.printDeclaration,
    printMethod_creationMethod, opening, closing, List.isEmpty_cons, if_false, if_true,
    Bool.false_eq_true, String.append_assoc]
  rfl

theorem source_marker_parts (namespaceName : String) :
    (marker namespaceName).source =
      fileHead namespaceName ++ "interface " ++ markerName ++ "\n\x7b\n\x7d\n" := by
  have opening : "<?php\ndeclare(strict_types=1);\n" =
      "<?php\n" ++ "declare(strict_types=1);\n" := by decide
  have closing : "\n\x7b\n\x7d\n" = "\n\x7b\n" ++ "\x7d\n" := by decide
  unfold source Interface.SourceFile.render marker Interface.SourceFile.ofInterface fileHead
  simp only [List.map_cons, List.map_nil, Text.concat, Text.joinWith, Interface.printDeclaration,
    opening, closing, List.isEmpty_nil, if_true, String.append_assoc, String.empty_append]

/-! ## The comment -/

/-- A line of the comment as it is printed. -/
def printedLine (parameter : Parameter) : String :=
  "\t * " ++ documentationLine parameter

/-- What is printed between the marks of the comment. -/
def documentationText (parameters : List Parameter) : String :=
  "\n" ++ Text.concat (parameters.map (fun parameter => printedLine parameter ++ "\n")) ++ "\t "

theorem printDoc_documented (documented : parameters ≠ []) :
    Interface.printDoc (parameters.map documentationLine) =
      "\t/**" ++ documentationText parameters ++ "*/\n" := by
  have opening : "\t/**\n" = "\t/**" ++ "\n" := by decide
  have closing : "\t */\n" = "\t " ++ "*/\n" := by decide
  have notEmpty : (parameters.map documentationLine).isEmpty = false := by
    simpa using documented
  unfold Interface.printDoc documentationText
  rw [notEmpty, List.map_map, opening, closing]
  simp only [Bool.false_eq_true, if_false, String.append_assoc, printedLine, Function.comp_def]

/-- A factory whose method is documented: what stands before the comment, the comment and
what stands behind it. -/
theorem source_documented (documented : parameters ≠ []) (dependencies : OrderedSet Path) :
    (factory className parameters namespaceName dependencies).source =
      (factoryHead className namespaceName ++ "\t") ++ "/**" ++ documentationText parameters ++
        "*/" ++ ("\n" ++ creationText className parameters namespaceName) := by
  have opening : "\t/**" = "\t" ++ "/**" := by decide
  have closing : "*/\n" = "*/" ++ "\n" := by decide
  rw [source_factory_parts, printDoc_documented documented, opening, closing]
  simp only [String.append_assoc]

end FactoryProxy.Artifact
