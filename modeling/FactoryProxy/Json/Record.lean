import FactoryProxy.Json.Value

/-!
Contract: records and maps read from JSON values.

A record is an object with known members or a list of their values in order.
Other members of an object do not count, and no known one may be repeated.

Owns: the access to the values of a record and the readers of maps and lists.
-/

namespace FactoryProxy.Json.Value

/-- The value of a member that stands at most once. The outer option is empty if
it is repeated. -/
def member? (members : List (String × Value)) (name : String) : Option (Option Value) :=
  match members.filter (fun member => member.1 == name) with
  | [] => some none
  | [member] => some (some member.2)
  | _ => none

/-- The values of the named members, absent ones empty. -/
def record? (names : List String) : Value → Option (List (Option Value))
  | object members => names.mapM (member? members)
  | list elements =>
    if elements.length ≤ names.length then
      some (elements.map some ++ List.replicate (names.length - elements.length) none)
    else none
  | _ => none

/-- A list of values of one kind. -/
def listOf? {α : Type} (read : Value → Option α) (value : Value) : Option (List α) :=
  value.elements?.bind (fun elements => elements.mapM read)

/-- The entries of an object with values of one kind. -/
def entriesOf? {α : Type} (read : Value → Option α) (value : Value) :
    Option (List (String × α)) :=
  value.members?.bind (fun members =>
    members.mapM (fun member => (read member.2).map (fun value => (member.1, value))))

end FactoryProxy.Json.Value
