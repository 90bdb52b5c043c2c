import FactoryProxy.Php.SourceFile

/-!
Contract: the nodes of tokens in order.

Tokens that are no brackets become leaves one by one, and tokens between two brackets that fit
become the inside of one group. Neither depends on what stands before or behind.

Owns: the leaves of tokens, the lines on which they stand, and the nodes of tokens in the middle
of a file.
-/

namespace FactoryProxy.Php

/-- The token opens or closes a group. -/
def Token.isBracket (token : Token) : Bool :=
  match token.kind with
  | .opening _ | .closing _ => true
  | _ => false

namespace Grouped

/-- The line behind tokens that start on a line. -/
def lineBehind (line : Nat) (tokens : List Token) : Nat :=
  tokens.foldl (fun reached token => reached + lineBreaks token.text) line

/-- The leaves of tokens that start on a line. -/
def leaves (line : Nat) : List Token → List Node
  | [] => []
  | token :: rest => .leaf line token :: leaves (line + lineBreaks token.text) rest

theorem lineBehind_append (line : Nat) (tokens more : List Token) :
    lineBehind line (tokens ++ more) = lineBehind (lineBehind line tokens) more :=
  List.foldl_append

/-- Tokens without line breaks stay on their line. -/
theorem lineBehind_of_unbroken {tokens : List Token}
    (unbroken : ∀ token ∈ tokens, lineBreaks token.text = 0) (line : Nat) :
    lineBehind line tokens = line := by
  induction tokens generalizing line with
  | nil => rfl
  | cons token rest inductionHypothesis =>
      obtain ⟨noBreak, others⟩ := List.forall_mem_cons.mp unbroken
      rw [lineBehind, List.foldl_cons, noBreak]
      exact inductionHypothesis others line

theorem leaves_append (line : Nat) (tokens more : List Token) :
    leaves line (tokens ++ more) = leaves line tokens ++ leaves (lineBehind line tokens) more := by
  induction tokens generalizing line with
  | nil => rfl
  | cons token rest inductionHypothesis =>
      exact congrArg (List.cons (.leaf line token)) (inductionHypothesis _)

theorem mem_leaves {line : Nat} {tokens : List Token} {node : Node}
    (member : node ∈ leaves line tokens) :
    ∃ place, ∃ token ∈ tokens, node = .leaf place token := by
  induction tokens generalizing line with
  | nil => cases member
  | cons token rest inductionHypothesis =>
      rcases List.mem_cons.mp member with isFirst | inRest
      · exact ⟨line, token, List.mem_cons_self, isFirst⟩
      · obtain ⟨place, found, inTokens, isLeaf⟩ := inductionHypothesis inRest
        exact ⟨place, found, List.mem_cons_of_mem _ inTokens, isLeaf⟩

theorem exists_leaf_of_mem (line : Nat) {tokens : List Token} {token : Token}
    (member : token ∈ tokens) : ∃ place, .leaf place token ∈ leaves line tokens := by
  induction tokens generalizing line with
  | nil => cases member
  | cons first rest inductionHypothesis =>
      rcases List.mem_cons.mp member with rfl | inRest
      · exact ⟨line, List.mem_cons_self⟩
      · obtain ⟨place, isLeaf⟩ := inductionHypothesis (line + lineBreaks first.text) inRest
        exact ⟨place, List.mem_cons_of_mem _ isLeaf⟩

@[simp] theorem length_leaves (line : Nat) (tokens : List Token) :
    (leaves line tokens).length = tokens.length := by
  induction tokens generalizing line with
  | nil => rfl
  | cons token rest inductionHypothesis => exact congrArg Nat.succ (inductionHypothesis _)

theorem map_plain_leaves (line : Nat) (tokens : List Token) :
    (leaves line tokens).map Node.plain = tokens.map Expression.leaf := by
  induction tokens generalizing line with
  | nil => rfl
  | cons token rest inductionHypothesis =>
      exact congrArg (List.cons (.leaf token)) (inductionHypothesis _)

/-- The tokens from a line on become the nodes, whatever stands around them, and the next token
stands on the line `behind`. -/
def Gathers (line : Nat) (tokens : List Token) (nodes : List Node) (behind : Nat) : Prop :=
  ∀ pending done balanced rest,
    gather pending done balanced line (tokens ++ rest) =
      gather pending (nodes.reverse ++ done) balanced behind rest

theorem Gathers.append {line middle behind : Nat} {tokens more : List Token}
    {nodes further : List Node} (first : Gathers line tokens nodes middle)
    (second : Gathers middle more further behind) :
    Gathers line (tokens ++ more) (nodes ++ further) behind := by
  intro pending done balanced rest
  rw [List.append_assoc, first, second, List.reverse_append, List.append_assoc]

theorem gathers_leaf (line : Nat) {token : Token} (noBracket : token.isBracket = false) :
    Gathers line [token] [.leaf line token] (line + lineBreaks token.text) := by
  intro pending done balanced rest
  simp only [List.singleton_append, gather]
  unfold Token.isBracket at noBracket
  cases isKind : token.kind <;> simp_all

theorem gathers_leaves (line : Nat) {tokens : List Token}
    (noBracket : ∀ token ∈ tokens, token.isBracket = false) :
    Gathers line tokens (leaves line tokens) (lineBehind line tokens) := by
  induction tokens generalizing line with
  | nil => exact fun _ _ _ _ => rfl
  | cons token rest inductionHypothesis =>
      have ofRest := inductionHypothesis (line + lineBreaks token.text)
        (fun other member => noBracket other (List.mem_cons_of_mem _ member))
      exact (gathers_leaf line (noBracket token List.mem_cons_self)).append ofRest

theorem gathers_group {line behind : Nat} {opening closing : Token} {bracket : Bracket}
    {tokens : List Token} {nodes : List Node} (isOpening : opening.kind = .opening bracket)
    (isClosing : closing.kind = .closing bracket)
    (inside : Gathers (line + lineBreaks opening.text) tokens nodes behind) :
    Gathers line (opening :: tokens ++ [closing])
      [.group line opening nodes (some closing) (.ofInner bracket nodes)]
      (behind + lineBreaks closing.text) := by
  intro pending done balanced rest
  rw [List.append_assoc, List.cons_append, List.singleton_append]
  simp only [gather, isOpening, inside (_ :: pending) [] balanced, isClosing]
  simp [Bracket.closes, OpenGroup.ended]

/-- A pair of brackets is one group with what stands inside. -/
theorem exists_group (opening closing : Token) {line behind : Nat} {bracket : Bracket}
    {tokens : List Token} {nodes : List Node} (isOpening : opening.kind = .opening bracket)
    (isClosing : closing.kind = .closing bracket)
    (inside : Gathers (line + lineBreaks opening.text) tokens nodes behind) :
    ∃ group, Gathers line (opening :: tokens ++ [closing]) [group]
        (behind + lineBreaks closing.text) ∧
      group.isGroup bracket = true ∧ group.inner = nodes ∧
      group.content = .ofInner bracket nodes :=
  ⟨_, gathers_group isOpening isClosing inside, by simp [Node.isGroup, isOpening], rfl, rfl⟩

/-- All nodes of a file, in which all brackets are in pairs. -/
theorem Gathers.grouped {tokens : List Token} {nodes : List Node} {behind : Nat}
    (gathers : Gathers 1 tokens nodes behind) : ofTokens tokens = ⟨nodes, true⟩ := by
  have whole := gathers [] [] true []
  rw [List.append_nil, List.append_nil] at whole
  unfold Grouped.ofTokens
  rw [whole]
  unfold gather
  simp

theorem Gathers.ofTokens {tokens : List Token} {nodes : List Node} {behind : Nat}
    (gathers : Gathers 1 tokens nodes behind) : (ofTokens tokens).nodes = nodes := by
  rw [gathers.grouped]

end Grouped

end FactoryProxy.Php
