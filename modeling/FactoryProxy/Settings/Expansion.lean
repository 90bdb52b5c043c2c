import FactoryProxy.Failure
import FactoryProxy.Settings.Template

/-!
Contract: the expansion of parameters in a text.

A reference is replaced by the expanded value of its parameter. While a value is
expanded its parameter is open and must not be referred to again, so each level
has one parameter less to use and the expansion ends.

Owns: `expand`.
-/

namespace FactoryProxy.Settings

abbrev Parameters := OrderedMap String String

/-- Parameters that are not open. -/
abbrev Available := List (String × String)

/-- The parameters without those of a name. -/
def Available.without (parameters : Available) (name : String) : Available :=
  parameters.filter (fun entry => entry.1 != name)

theorem Available.length_without_lt {parameters : Available} {name value : String}
    (found : parameters.lookup name = some value) :
    (parameters.without name).length < parameters.length := by
  induction parameters with
  | nil => simp at found
  | cons entry rest inductionHypothesis =>
      simp only [Available.without, List.filter_cons]
      by_cases same : entry.1 = name
      · simp only [same, bne_self_eq_false, Bool.false_eq_true, if_false, List.length_cons]
        have := List.length_filter_le (fun entry => entry.1 != name) rest
        omega
      · have different : (entry.1 != name) = true := by simpa using same
        have notHead : (name == entry.1) = false := by
          simpa using fun equal => same equal.symm
        rw [List.lookup_cons, notHead] at found
        have := inductionHypothesis found
        simp only [different, if_true, List.length_cons]
        unfold Available.without at this
        omega

/-- The text of parts, given the parameters that are not open and the names of
those that are. -/
def expandParts (available : Available) (opened : List String) (parts : List TemplatePart) :
    Except ConfigurationFailure String :=
  match parts with
  | [] => .ok ""
  | .character c :: rest => do
    return String.singleton c ++ (← expandParts available opened rest)
  | .percentSign :: rest => do
    return "%" ++ (← expandParts available opened rest)
  | .reference name :: rest =>
    match found : available.lookup name with
    | some value => do
      have := Available.length_without_lt found
      let inner ← expandParts (available.without name) (name :: opened) (partsOf value.toList)
      return inner ++ (← expandParts available opened rest)
    | none =>
      if opened.contains name then .error (.circularParameter name)
      else .error (.missingParameter name)
termination_by (available.length, parts.length)

def expand (parameters : Parameters) (text : String) : Except Failure String :=
  (expandParts parameters.entries [] (partsOf text.toList)).mapError .configuration

end FactoryProxy.Settings
