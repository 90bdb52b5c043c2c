import FactoryProxy.Php.Syntax

/-!
Contract: whether two statements are the same can be computed.

Owns: decidable equality of code and of statements. Both contain lists of themselves, so each is
compared together with its lists.
-/

namespace FactoryProxy.Php

/-! ## Code -/

namespace Expression

mutual

/-- Both are the same code. -/
def same : Expression → Expression → Bool
  | .leaf token, .leaf other => token == other
  | .name text, .name other => text == other
  | .constantAccess owner access, .constantAccess other access' =>
    same owner other && access == access'
  | .instantiation intro className arguments, .instantiation intro' className' others =>
    intro == intro' && className == className' && sameParts arguments others
  | .compound parts, .compound others => sameParts parts others
  | _, _ => false

def sameParts : List Expression → List Expression → Bool
  | [], [] => true
  | part :: rest, other :: others => same part other && sameParts rest others
  | _, _ => false

end

mutual

theorem same_iff : ∀ part other : Expression, same part other = true ↔ part = other
  | .leaf _, other => by cases other <;> simp [same]
  | .name _, other => by cases other <;> simp [same]
  | .constantAccess owner _, other => by cases other <;> simp [same, same_iff owner]
  | .instantiation _ _ arguments, other => by
      cases other <;> simp [same, and_assoc, sameParts_iff arguments]
  | .compound parts, other => by cases other <;> simp [same, sameParts_iff parts]

theorem sameParts_iff : ∀ parts others : List Expression,
    sameParts parts others = true ↔ parts = others
  | [], others => by cases others <;> simp [sameParts]
  | part :: rest, others => by
      cases others <;> simp [sameParts, same_iff part, sameParts_iff rest]

end

instance : DecidableEq Expression := fun part other =>
  decidable_of_iff (same part other = true) (same_iff part other)

end Expression

/-! ## Statements -/

deriving instance DecidableEq for ParameterSyntax, ConstructorSyntax, ClassSyntax

namespace Statement

mutual

/-- Both are the same statement. -/
def same : Statement → Statement → Bool
  | .namespaceStart name, .namespaceStart other => name == other
  | .namespaceBlock name body, .namespaceBlock other others => name == other && sameAll body others
  | .imports declared, .imports other => declared == other
  | .declaration declared, .declaration other => declared == other
  | .nameless, .nameless => true
  | _, _ => false

def sameAll : List Statement → List Statement → Bool
  | [], [] => true
  | statement :: rest, other :: others => same statement other && sameAll rest others
  | _, _ => false

end

mutual

theorem same_iff : ∀ statement other : Statement,
    same statement other = true ↔ statement = other
  | .namespaceStart _, other => by cases other <;> simp [same]
  | .namespaceBlock _ body, other => by cases other <;> simp [same, sameAll_iff body]
  | .imports _, other => by cases other <;> simp [same]
  | .declaration _, other => by cases other <;> simp [same]
  | .nameless, other => by cases other <;> simp [same]

theorem sameAll_iff : ∀ statements others : List Statement,
    sameAll statements others = true ↔ statements = others
  | [], others => by cases others <;> simp [sameAll]
  | statement :: rest, others => by
      cases others <;> simp [sameAll, same_iff statement, sameAll_iff rest]

end

instance : DecidableEq Statement := fun statement other =>
  decidable_of_iff (same statement other = true) (same_iff statement other)

end Statement

end FactoryProxy.Php
