import FactoryProxy.Name.Scope
import FactoryProxy.Php.Expression

/-!
Contract: default values moved to another namespace.

A default value is copied into a generated file that stands in a namespace of
its own. Names that denote classes, and all names with a separator, are replaced
by full names behind a separator, so they denote there what they denote in the
declaring class. Everything else is copied unchanged.

Owns: the context of a default value, its segments and the moved text.
-/

namespace FactoryProxy.Reflection

/-- What names in a class body depend on. -/
structure Declaring where
  scope : Name.NameScope
  className : String
  parent : Option String
deriving DecidableEq, Repr

/-- A stretch of an expression: copied, or a name that is replaced. -/
inductive Segment where
  | kept (text : String)
  | replaced (written replacement : String)
deriving DecidableEq, Repr

namespace Segment

/-- The text as it stands in the source. -/
def before : Segment → String
  | kept text => text
  | replaced written _ => written

/-- The text as it stands in the generated file. -/
def after : Segment → String
  | kept text => text
  | replaced _ replacement => replacement

end Segment

namespace Declaring

/-- The full name of the class that a reference denotes, white space at its ends apart.
`parent` denotes none in a class without a parent. -/
def classNamed? (declaring : Declaring) (reference : String) : Option String :=
  let word := Text.fold (Text.trimBlank reference)
  if word = "self" ∨ word = "static" then some declaring.className
  else if word = "parent" then declaring.parent
  else some (declaring.scope.resolve reference)

/-- A name where a class is meant. -/
def reference (declaring : Declaring) (written : String) : Segment :=
  match declaring.classNamed? written with
  | some name => .replaced written (Name.fullyQualified name)
  | none => .kept written

/-- A name anywhere else: a bare word keeps its meaning in every namespace. -/
def mention (declaring : Declaring) (written : String) : Segment :=
  if written.toList.any Name.isSeparator then
    .replaced written (Name.fullyQualified (declaring.scope.resolve written))
  else .kept written

mutual

/-- The segments of an expression in order. The class behind `new` is replaced
as a class reference only if nothing but white space stands between. -/
def segments (declaring : Declaring) : Php.Expression → List Segment
  | .leaf token => [.kept token.text]
  | .name text => [declaring.mention text]
  | .constantAccess owner access =>
    (match owner.name? with
      | some name => [declaring.reference name]
      | none => declaring.segments owner) ++ [.kept access]
  | .instantiation intro className arguments =>
    let created :=
      if intro.any (fun token => token.isTrivia && token.kind != .blank) then
        declaring.mention className
      else declaring.reference className
    .kept (Php.Expression.tokensText intro) :: created :: declaring.segmentsOf arguments
  | .compound parts => declaring.segmentsOf parts

def segmentsOf (declaring : Declaring) : List Php.Expression → List Segment
  | [] => []
  | part :: rest => declaring.segments part ++ declaring.segmentsOf rest

end

/-- The text of the expression in the generated file. -/
def moved (declaring : Declaring) (value : Php.Expression) : String :=
  Text.concat ((declaring.segments value).map Segment.after)

end Declaring

end FactoryProxy.Reflection
