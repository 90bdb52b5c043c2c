import FactoryProxy.Text.Split
import FactoryProxy.OrderedMap

/-!
Contract: paths as texts that are compared by their components.

The text of a path is kept as written. Two paths are the same, and are ordered,
by the list of their components: repeated slashes, a trailing slash and inner
`.` segments do not count, while `..` and a leading `.` do.

Owns: `Path`, `Component`, the component view and the order.
-/

namespace FactoryProxy

structure Path where
  text : String
deriving DecidableEq, Repr, Inhabited

namespace Path

inductive Component where
  | root
  | current
  | parent
  | normal (name : String)
deriving DecidableEq, Repr

namespace Component

/-- The root comes first, then `.`, `..` and the names in the order of their
characters. -/
def rank : Component → Nat × String
  | root => (0, "")
  | current => (1, "")
  | parent => (2, "")
  | normal name => (3, name)

theorem rank_injective {left right : Component} (same : left.rank = right.rank) :
    left = right := by
  cases left <;> cases right <;> simp_all [rank]

/-- Components are compared by kind, then names by their characters. -/
def order : Component → Component → Ordering :=
  compareLex (compareOn (fun component => component.rank.1))
    (compareOn (fun component => component.rank.2))

instance : Ord Component := ⟨order⟩

instance : Std.TransOrd Component :=
  (inferInstance : Std.TransCmp (compareLex (compareOn (fun component : Component =>
    component.rank.1)) (compareOn (fun component => component.rank.2))))

instance : Std.LawfulEqOrd Component where
  eq_of_compare := by
    intro left right equal
    have both : compare left.rank.1 right.rank.1 = .eq ∧
        compare left.rank.2 right.rank.2 = .eq := Ordering.then_eq_eq.1 equal
    exact rank_injective (Prod.ext (Std.LawfulEqOrd.eq_of_compare both.1)
      (Std.LawfulEqOrd.eq_of_compare both.2))

def text : Component → String
  | root => "/"
  | current => "."
  | parent => ".."
  | normal name => name

end Component

def isSlash (c : Char) : Bool := c == '/'

def isAbsolute (path : Path) : Bool :=
  match path.text.toList with
  | [] => false
  | first :: _ => isSlash first

/-- The component of a segment between slashes, if it counts. -/
def componentOf (segment : List Char) : Option Component :=
  if segment = [] ∨ segment = ['.'] then none
  else if segment = ['.', '.'] then some .parent
  else some (.normal (String.ofList segment))

/-- The component view of a text. A first segment `.` counts if no slash stands
before it. -/
def componentsOf (characters : List Char) : List Component :=
  let segments := Text.pieces isSlash characters
  let inner := segments.filterMap componentOf
  match segments with
  | [] => []
  | [] :: _ :: _ => .root :: inner
  | first :: _ => if first = ['.'] then .current :: inner else inner

def components (path : Path) : List Component :=
  componentsOf path.text.toList

/-- Paths are ordered by their components, the root before everything. -/
instance : Ord Path where
  compare left right := compare left.components right.components

instance : Std.TransOrd Path where
  eq_swap := (inferInstance : Std.TransOrd (List Component)).eq_swap
  isLE_trans := (inferInstance : Std.TransOrd (List Component)).isLE_trans

/-- The two paths have the same components. -/
def same (left right : Path) : Bool :=
  left.components == right.components

/-- Paths compare as equal exactly if their components are equal. -/
theorem compare_eq_iff {left right : Path} :
    compare left right = .eq ↔ left.components = right.components :=
  Std.LawfulEqOrd.compare_eq_iff_eq (α := List Component)

example : (Path.mk "a//b/.").components = [.normal "a", .normal "b"] := by decide +kernel
example : (Path.mk "./a").components = [.current, .normal "a"] := by decide +kernel
example : (Path.mk "/").components = [.root] := by decide +kernel
example : compare (Path.mk "a/b.php") (Path.mk "a-b/b.php") = .lt := by decide +kernel

end Path

end FactoryProxy
