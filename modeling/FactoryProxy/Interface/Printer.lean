import FactoryProxy.Interface.Model
import FactoryProxy.Text.Join

/-!
Contract: the text of generated source files.

Owns: one function per part of a file. A part is printed the same wherever it
stands, a method is indented by one tab, and a blank line separates neighbours.
-/

namespace FactoryProxy.Interface

/-- The parameter as it stands in a signature. -/
def printParameter (parameter : ParameterDeclaration) : String :=
  (match parameter.typeHint with
    | some hint => hint ++ " "
    | none => "")
    ++ (if parameter.byReference then "&" else "")
    ++ (if parameter.variadic then "..." else "")
    ++ "$" ++ parameter.name
    ++ (match parameter.defaultValue with
      | some value => " = " ++ value
      | none => "")

/-- The comment above a method, nothing if it has no line. -/
def printDoc (lines : List String) : String :=
  if lines.isEmpty then ""
  else "\t/**\n" ++ Text.concat (lines.map (fun line => "\t * " ++ line ++ "\n")) ++ "\t */\n"

def printMethod (file : SourceFile) (method : Method) : String :=
  printDoc method.doc
    ++ "\tpublic function " ++ method.name
    ++ "(" ++ Text.joinWith ", " (method.parameters.map printParameter) ++ ")"
    ++ (match method.returnType with
      | some name => ": " ++ file.relativeName name
      | none => "")
    ++ ";\n"

def printDeclaration (file : SourceFile) (declaration : Declaration) : String :=
  "interface " ++ declaration.name
    ++ (if declaration.parents.isEmpty then ""
      else " extends " ++ Text.joinWith ", " (declaration.parents.map file.relativeName))
    ++ "\n\x7b\n"
    ++ Text.joinWith "\n" (declaration.methods.map (printMethod file))
    ++ "\x7d\n"

def SourceFile.render (file : SourceFile) : String :=
  "<?php\n"
    ++ (if file.strictTypes then "declare(strict_types=1);\n" else "")
    ++ (if file.namespaceName.isEmpty then ""
      else "\nnamespace " ++ file.namespaceName ++ ";\n")
    ++ Text.concat (file.interfaces.map (fun declaration =>
      "\n" ++ printDeclaration file declaration))

end FactoryProxy.Interface
