import FactoryProxy.Name.Basic

/-!
Contract: the names of generated interfaces.

A factory is named after its class with the separators taken out, so the
mapping is not injective: `A\BC` and `AB\C` share a factory name.

Owns: the fixed names, the name of a factory, its place in the proxy namespace
and the way back from a requested type to the name of its file.
-/

namespace FactoryProxy.Artifact

def factorySuffix : String := "___GeneratedFactoryInterface"

/-- The interface that every generated factory extends. -/
def markerName : String := "IGeneratedFactory"

/-- The extension of source files and of generated files. -/
def sourceExtension : String := "php"

def defaultNamespace : String := "AutoFactory\\Proxies"

def factoryName (className : String) : String :=
  Name.stripSeparators className ++ factorySuffix

/-- The name of an interface inside the proxy namespace. -/
def qualifiedName (namespaceName name : String) : String :=
  let parent := Name.trimSeparators namespaceName
  if parent.isEmpty then name else Name.join parent name

/-- What follows a leading text that equals the first one up to ASCII case. -/
def dropFolded : List Char → List Char → Option (List Char)
  | [], rest => some rest
  | _ :: _, [] => none
  | expected :: more, actual :: rest =>
    if expected.toLower = actual.toLower then dropFolded more rest else none

/-- What stands below the namespace in a type name: the whole name for the
global namespace, otherwise what follows the namespace and one separator. -/
def belowNamespace (namespaceName typeName : List Char) : Option (List Char) :=
  if namespaceName.isEmpty then some typeName
  else
    match dropFolded namespaceName typeName with
    | some (first :: rest) => if Name.isSeparator first then some rest else none
    | _ => none

/-- The base name of the file that holds a requested type, if the type lives in
the namespace. -/
def baseName? (namespaceName typeName : String) : Option String :=
  let below := belowNamespace (Name.trimSeparators namespaceName).toList
    (Name.trimLeading typeName).toList
  (below.map (fun rest => Name.stripSeparators (String.ofList rest))).filter
    (fun base => !base.isEmpty)

example : factoryName "App\\Foo" = "AppFoo___GeneratedFactoryInterface" := by decide +kernel
example : baseName? "Gen" "\\gen\\A\\B" = some "AB" := by decide +kernel
example : baseName? "Gen" "GenX\\Foo" = none := by decide +kernel

end FactoryProxy.Artifact
