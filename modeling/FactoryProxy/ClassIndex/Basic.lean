import FactoryProxy.ClassDeclaration
import FactoryProxy.Failure

/-!
Contract: the declarations of a set of files, by name.

Owns: `ClassIndex`, its construction from declarations and the look-up under any
spelling of a name.
Does not own: questions about the hierarchy.
-/

namespace FactoryProxy

/-- Declarations under their keys, and the files that were scanned for them. -/
structure ClassIndex where
  classes : OrderedMap String ClassDeclaration
  files : List Path
deriving DecidableEq, Repr

namespace ClassIndex

/-- Adds declarations in order. A key that is present ends the construction. -/
def addAll (classes : OrderedMap String ClassDeclaration) :
    List ClassDeclaration → Except Failure (OrderedMap String ClassDeclaration)
  | [] => .ok classes
  | declared :: rest =>
    match classes.get? declared.key with
    | some earlier => .error (.ambiguousClass declared.name earlier.file declared.file)
    | none => addAll (classes.insert declared.key declared) rest

/-- The index of declarations, of which no two may share a key. -/
def ofClasses (declared : List ClassDeclaration) : Except Failure ClassIndex :=
  (addAll ∅ declared).map (fun classes => ⟨classes, []⟩)

/-- The declarations in the order of their keys. -/
def toList (index : ClassIndex) : List ClassDeclaration :=
  index.classes.values

def size (index : ClassIndex) : Nat :=
  index.classes.size

def get? (index : ClassIndex) (name : String) : Option ClassDeclaration :=
  index.classes.get? (Name.lookupKey name)

/-- Some declaration names the type behind `extends` or `implements`. -/
def isReferenced (index : ClassIndex) (name : String) : Bool :=
  index.toList.any (fun declared =>
    declared.supertypeNames.any (fun supertype =>
      Name.lookupKey supertype == Name.lookupKey name))

end ClassIndex

end FactoryProxy
