import FactoryProxy.Text.Folding
import FactoryProxy.Text.Split
import FactoryProxy.Text.Blank

/-!
Contract: names of classes and namespaces as texts of segments joined by a
backslash.

Owns: the separator, trimming and stripping of separators, the short name and
the key under which a class is looked up. Two spellings name one class exactly
if their keys are equal: outer separators and the case of ASCII letters do not
count.
-/

namespace FactoryProxy.Name

def separator : Char := '\\'

def isSeparator (c : Char) : Bool := c == separator

/-- The name without separators at its ends. -/
def trimSeparators (name : String) : String :=
  Text.trim isSeparator name

/-- The name without separators at its start. -/
def trimLeading (name : String) : String :=
  Text.trimStart isSeparator name

/-- The last segment, empty if the name ends in a separator. -/
def shortName (name : String) : String :=
  Text.lastPiece separator name

/-- The name with every separator taken out. -/
def stripSeparators (name : String) : String :=
  String.ofList (name.toList.filter (fun c => !isSeparator c))

/-- What identifies a class among all spellings of its name. -/
def lookupKey (name : String) : String :=
  Text.fold (trimSeparators name)

/-- One name below another: both joined by a separator. -/
def join (parent child : String) : String :=
  parent ++ String.singleton separator ++ child

/-- The name written so that it is resolved as it stands in every namespace. -/
def fullyQualified (name : String) : String :=
  String.singleton separator ++ name

example : trimSeparators "\\\\Foo\\" = "Foo" := by decide +kernel
example : lookupKey "\\App\\Foo" = "app\\foo" := by decide +kernel
example : shortName "App\\Foo\\" = "" := by decide +kernel

end FactoryProxy.Name
