import FactoryProxy.Reflection.Declarations

/-!
Contract: statements in order.

What statements declare depends on the scope in which they start, and they leave a scope for what
follows. On which lines they stand matters for the lines of the declarations only.

Owns: the scope behind statements, statements without their lines, and what several lists of
statements declare one after another.
-/

namespace FactoryProxy

/-! ## Lines -/

namespace Php

/-- The class without its line. -/
def ClassSyntax.unlined (written : ClassSyntax) : ClassSyntax :=
  { written with line := 0 }

namespace Statement

mutual

/-- The statement without the lines of its classes. -/
def unlined : Statement → Statement
  | .namespaceBlock name body => .namespaceBlock name (unlinedAll body)
  | .declaration declared => .declaration declared.unlined
  | .namespaceStart name => .namespaceStart name
  | .imports declared => .imports declared
  | .nameless => .nameless

def unlinedAll : List Statement → List Statement
  | [] => []
  | statement :: rest => unlined statement :: unlinedAll rest

end

end Statement

end Php

/-- The declaration without its file and its line. -/
def ClassDeclaration.content (declared : ClassDeclaration) : ClassDeclaration :=
  { declared with file := ⟨""⟩, line := 0 }

namespace Reflection

open Php (Statement)

/-! ## Order -/

/-- The scope behind statements. -/
def scopeBehind (file : Path) (scope : Name.NameScope) (statements : List Statement) :
    Name.NameScope :=
  statements.foldl (fun reached statement => (step file reached statement).1) scope

theorem declarations_append (file : Path) (scope : Name.NameScope)
    (statements more : List Statement) :
    declarations file scope (statements ++ more) =
      declarations file scope statements ++
        declarations file (scopeBehind file scope statements) more := by
  induction statements generalizing scope with
  | nil => rfl
  | cons statement rest inductionHypothesis =>
      simp only [List.cons_append, declarations, inductionHypothesis, List.append_assoc,
        scopeBehind, List.foldl_cons]

/-! ## Content -/

mutual

/-- What a statement declares depends neither on the file nor on its lines. -/
theorem step_content (file : Path) (scope : Name.NameScope) : ∀ statement : Statement,
    (step file scope statement).1 = (step ⟨""⟩ scope statement.unlined).1 ∧
      (step file scope statement).2.map ClassDeclaration.content =
        (step ⟨""⟩ scope statement.unlined).2
  | .namespaceStart _ => ⟨rfl, rfl⟩
  | .namespaceBlock name body => ⟨rfl, declarations_content file (.ofNamespace name) body⟩
  | .imports _ => ⟨rfl, rfl⟩
  | .declaration _ => ⟨rfl, rfl⟩
  | .nameless => ⟨rfl, rfl⟩

theorem declarations_content (file : Path) (scope : Name.NameScope) :
    ∀ statements : List Statement,
      (declarations file scope statements).map ClassDeclaration.content =
        declarations ⟨""⟩ scope (Statement.unlinedAll statements)
  | [] => rfl
  | statement :: rest => by
      obtain ⟨sameScope, sameDeclarations⟩ := step_content file scope statement
      have sameRest := declarations_content file (step file scope statement).1 rest
      unfold declarations Statement.unlinedAll
      rw [List.map_append, sameDeclarations, sameRest, sameScope]

end

end Reflection

end FactoryProxy
