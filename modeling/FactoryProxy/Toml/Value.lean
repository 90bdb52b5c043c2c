/-!
Contract: the values of a settings document.

The only scalars are texts, and dates and times in their normal form: a document
that holds numbers or truth values is refused where it is read.

Owns: `Value`.
-/

namespace FactoryProxy.Toml

inductive Value where
  | text (text : String)
  /-- A date, a time or both. -/
  | moment (normalForm : String)
  | list (elements : List Value)
  | table (entries : List (String × Value))
deriving Repr

end FactoryProxy.Toml
