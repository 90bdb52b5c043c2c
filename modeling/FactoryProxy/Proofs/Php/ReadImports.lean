import FactoryProxy.Php.Grammar.Declaration
import FactoryProxy.Php.SourceFile
import FactoryProxy.Proofs.Php.WrittenImports

/-!
Contract: how import declarations are read.

A written declaration is read as what it imports, whatever stands before and behind it, so the
statements of a file of imports are its declarations in order.

Owns: the reading of clauses, of lists of names, of both forms of a declaration and of files of
imports.
Does not own: what an import means for the names of a file.
-/

namespace FactoryProxy.Php

open Reader Grouped

/-! ## Reading names -/

namespace Grammar

variable {marked : Bool} {name lead tokens : List Token} {rest : List Node} {line : Nat}

/-- The marker is taken, and the name behind it is left. -/
theorem takes_importMarker (isLead : IsLead marked lead) (isName : IsName name)
    (unmarked : marked = false → StartsUnmarked name) (more : List Token) :
    ∃ taken between, IsQuiet between ∧
      Takes importMarker (leaves line (lead ++ (name ++ more)) ++ rest)
        (leaves (lineBehind line taken) (between ++ (name ++ more)) ++ rest) marked
        (taken.map Expression.leaf) := by
  obtain ⟨first, others, rfl, notTrivia, isFirst⟩ := head_of_isName isName
  cases isLead with
  | unmarked quiet =>
      refine ⟨[], _, quiet, Fails.maybe (Fails.bind (fails_node ?_) _)⟩
      rw [leaves_append, List.append_assoc]
      refine Lacks.behind (quiet.isWideGap line) (lacks_leaf notTrivia ?_ _)
      have notMarker := unmarked rfl first rfl
      rcases isFirst with isWord | rfl
      · unfold Token.IsMarker at notMarker
        simp_all [Node.isKeywordIn, Node.keyword?, Node.word?]
      · rfl
  | @marked before behind marker quietBefore isMarker quietBehind =>
      refine ⟨before ++ [marker], behind, quietBehind, Takes.maybe ?_⟩
      rw [show before ++ marker :: behind ++ (first :: others ++ more) =
        (before ++ [marker]) ++ (behind ++ (first :: others ++ more)) by simp, leaves_append line,
        List.append_assoc]
      refine (takes_leafKeywordIn (quietBefore.isWideGap line) isMarker.1 isMarker.2).returns ?_
      rw [leaves_append, List.append_assoc]
      -- The name starts with a word or a separator, by which a marker is known.
      have isSeen : ∀ place, ((Node.leaf place first).isWord ||
          (Node.leaf place first).isSymbol "\\") = true := by
        intro place
        rcases isFirst with isWord | rfl
        · simp [Node.isWord, word?_leaf isWord]
        · rfl
      have notAllowed := allows_leaf .wide notTrivia
      refine Takes.returns (takes_sees (quietBehind.isWideGap _) (notAllowed _) (isSeen _)) ?_
      exact takes_pure () _

/-- What follows does not continue a clause: neither its name nor its local name. -/
def EndsClause (rest : List Node) : Prop :=
  Lacks .quiet (fun node => node.isWord || node.isSymbol "\\") rest

theorem EndsClause.lacks_backslash (ends : EndsClause rest) :
    Lacks .quiet (Node.isSymbol "\\") rest :=
  ends.imp (fun _ refused => (Bool.or_eq_false_iff.mp refused).2)

/-- A local name separates the name from what follows. -/
theorem lacks_backslash_alias {localName : Option String} {given : List Token}
    (isAlias : IsAlias localName given) (ends : EndsClause rest) :
    Lacks .quiet (Node.isSymbol "\\") (leaves line given ++ rest) := by
  cases isAlias with
  | none => exact ends.lacks_backslash
  | given quietBefore isAs _ _ =>
      rw [leaves_append, List.append_assoc]
      refine Lacks.behind (quietBefore.isGap line) (lacks_leaf (isTrivia_of_word isAs.1) ?_ _)
      simp [Node.isSymbol, isAs.1]

theorem takes_alias {localName : Option String} {given : List Token}
    (isAlias : IsAlias localName given) (ends : EndsClause rest) :
    Takes ((do keyword .quiet "as"; return some (← word .wide)) <|> return none)
      (leaves line given ++ rest) rest localName (given.map Expression.leaf) := by
  cases isAlias with
  | none =>
      refine Fails.orElse_takes (Fails.bind (fails_node (ends.imp ?_)) _) (takes_pure none rest)
      intro node refused
      have noWord := (Bool.or_eq_false_iff.mp refused).1
      cases isText : node.word? with
      | none => simp [Node.isKeyword, Node.keyword?, isText]
      | some text => simp [Node.isWord, isText] at noWord
  | @given before behind keyword word quietBefore isAs quietBehind isWord =>
      refine Takes.orElse ?_ _
      rw [show before ++ keyword :: (behind ++ [word]) = (before ++ [keyword]) ++ (behind ++ [word])
        by simp, leaves_append, List.append_assoc, List.map_append]
      refine (takes_leafKeyword (quietBefore.isGap line) isAs).bind ?_
      exact (takes_leafWord (quietBehind.isWideGap _) isWord).returns (takes_pure _ rest)

/-- A clause is read back. -/
theorem takes_importClause {written : WrittenClause} (isWritten : written.Written tokens)
    (ends : EndsClause rest) :
    ∃ added, Takes importClause (leaves line tokens ++ rest) rest written.clause added := by
  obtain @⟨lead, given, isLead, ⟨isName, unmarked⟩, isAlias⟩ := isWritten
  obtain ⟨taken, between, quiet, marker⟩ := takes_importMarker isLead isName unmarked given
  rw [← List.append_assoc between, leaves_append (lineBehind line taken), List.append_assoc]
    at marker
  have nameEnds : ∀ place, Fails (segment .quiet) (leaves place given ++ rest) :=
    fun _ => (fails_node (lacks_backslash_alias isAlias ends)).bind _
  exact ⟨_, marker.bind ((takes_name (by decide) isName (nameEnds _) quiet).bind
    ((takes_alias isAlias ends).returns (takes_pure _ rest)))⟩

/-- No clause starts in front of anything else than a word or a separator. -/
theorem fails_importClause {nodes : List Node}
    (lacks : Lacks .wide (fun node => node.isWord || node.isSymbol "\\") nodes) :
    Fails importClause nodes := by
  have noMarker : Fails (keywordIn .wide ["function", "const"]) nodes := by
    refine fails_node (lacks.imp (fun node refused => ?_))
    have noWord := (Bool.or_eq_false_iff.mp refused).1
    cases isText : node.word? with
    | none => simp [Node.isKeywordIn, Node.keyword?, isText]
    | some text => simp [Node.isWord, isText] at noWord
  exact Takes.bind_fails (noMarker.bind _).maybe ((fails_name .quiet lacks).bind _)

/-! ## Reading lists of names -/

theorem endsClause_comma {before more : List Token} (quiet : IsQuiet before) :
    EndsClause (leaves line (before ++ .comma :: more) ++ rest) := by
  rw [leaves_append, List.append_assoc]
  exact Lacks.behind (quiet.isGap line) (lacks_leaf rfl rfl _)

theorem endsClause_further {others : List WrittenClause}
    (further : WrittenFurther others tokens) (ends : EndsClause rest) :
    EndsClause (leaves line tokens ++ rest) := by
  cases further with
  | nil => exact ends
  | cons quiet _ _ => exact endsClause_comma quiet

theorem exists_node_of_written {written : WrittenClause} (isWritten : written.Written tokens)
    (line : Nat) : ∃ node ∈ leaves line tokens, node.isTrivia = false := by
  obtain ⟨-, ⟨isName, -⟩, -⟩ := isWritten
  obtain ⟨first, rest, isFirst, notTrivia, -⟩ := head_of_isName isName
  obtain ⟨place, isLeaf⟩ := exists_leaf_of_mem line
    (List.mem_append_right _ (List.mem_append_left _ (isFirst ▸ List.mem_cons_self)))
  exact ⟨_, isLeaf, notTrivia⟩

/-- Names behind commas are read one after another. -/
theorem collects_further {others : List WrittenClause} (further : WrittenFurther others tokens)
    (ends : EndsClause rest) (noComma : Lacks .quiet (Node.isSymbol ",") rest) :
    ∀ line, ∃ added, Collects (do symbol .quiet ","; importClause) (leaves line tokens ++ rest)
      rest (others.map WrittenClause.clause) added := by
  induction further with
  | nil => exact fun _ => ⟨[], .nil ((fails_node noComma).bind _)⟩
  | @cons before tokens more first others quiet written further inductionHypothesis =>
      intro line
      rw [show before ++ Token.comma :: (tokens ++ more) = (before ++ [.comma]) ++ tokens ++ more
        by simp, leaves_append, leaves_append, List.append_assoc, List.append_assoc]
      obtain ⟨added, collected⟩ := inductionHypothesis _
      obtain ⟨ofFirst, taken⟩ := takes_importClause written (endsClause_further further ends)
      refine ⟨_, .cons ?_ ((takes_leafSymbol (quiet.isGap line) rfl).bind taken) collected⟩
      simp only [List.length_append, length_leaves, List.length_cons]
      omega

theorem takes_importList {others : List WrittenClause} {first : WrittenClause} {more : List Token}
    (marked : Bool) (written : first.Written tokens) (further : WrittenFurther others more)
    (ends : EndsClause rest) (noComma : Lacks .quiet (Node.isSymbol ",") rest) (line : Nat) :
    ∃ added, Takes (importList marked) (leaves line (tokens ++ more) ++ rest) rest
      (WrittenImport.list marked (first :: others)).declared added := by
  rw [leaves_append, List.append_assoc]
  obtain ⟨ofFirst, taken⟩ := takes_importClause written (endsClause_further further ends)
  obtain ⟨added, collected⟩ := collects_further further ends noComma _
  have allTaken : Takes (listed .quiet importClause)
      (leaves line tokens ++ (leaves (lineBehind line tokens) more ++ rest)) rest
      (first.clause :: others.map WrittenClause.clause) (ofFirst ++ added) :=
    taken.bind (collected.collect.returns (takes_pure _ rest))
  exact ⟨_, allTaken.returns (takes_pure _ rest)⟩

/-! ## Reading names in braces -/

/-- The reading of a list throughout finds the clauses. -/
def Holds (nodes : List Node) (clauses : List ImportClause) : Prop :=
  ∀ found, ∃ rest added, IsGap .wide rest ∧
    Repeats (throughoutStep importClause anyNode) found nodes rest (clauses.reverse ++ found) added

theorem Holds.throughout {nodes : List Node} {clauses : List ImportClause}
    (holds : Holds nodes clauses) : (throughout importClause anyNode nodes).1 = clauses := by
  obtain ⟨rest, added, isGap, repeats⟩ := holds []
  rw [repeats.throughout isGap]
  simp only [List.append_nil, List.reverse_reverse]

theorem holds_gap {nodes : List Node} (isGap : IsGap .wide nodes) : Holds nodes [] :=
  fun found => ⟨nodes, [], isGap, .stop (takes_throughoutStep_end found isGap)⟩

theorem takes_anyNode (node : Node) (rest : List Node) :
    Takes anyNode (node :: rest) rest () [node.plain] :=
  takes_node (isGap_nil .nothing) rfl rfl

/-- What stands in front of a comma is passed over with it. -/
theorem Holds.comma {before : List Token} {clauses : List ImportClause} (quiet : IsQuiet before)
    (holds : Holds rest clauses) : Holds (leaves line (before ++ [.comma]) ++ rest) clauses := by
  intro found
  obtain ⟨behind, added, isGap, others⟩ := holds found
  suffices passed : ∀ line, ∃ further, Repeats (throughoutStep importClause anyNode) found
      (leaves line (before ++ [.comma]) ++ rest) behind (clauses.reverse ++ found) further by
    obtain ⟨further, repeats⟩ := passed line
    exact ⟨behind, further, isGap, repeats⟩
  -- Each token up to the comma is passed over, because no clause starts at it.
  induction before with
  | nil =>
      intro line
      have failed : Fails importClause (leaves line [.comma] ++ rest) :=
        fails_importClause (lacks_leaf rfl rfl rest)
      have step := takes_throughoutStep_otherwise found List.mem_cons_self rfl failed
        (takes_anyNode _ rest)
      exact ⟨_, .more (Nat.lt_succ_self _) step others⟩
  | cons token more inductionHypothesis =>
      intro line
      have quietMore : IsQuiet more :=
        fun other member => quiet other (List.mem_cons_of_mem _ member)
      obtain ⟨further, repeats⟩ := inductionHypothesis quietMore (line + lineBreaks token.text)
      have failed : Fails importClause (leaves line (token :: more ++ [.comma]) ++ rest) := by
        rw [leaves_append, List.append_assoc]
        exact fails_importClause (Lacks.behind (quiet.isWideGap line) (lacks_leaf rfl rfl rest))
      obtain ⟨place, isComma⟩ := exists_leaf_of_mem line
        (List.mem_append_right (token :: more) (List.mem_singleton_self Token.comma))
      have step := takes_throughoutStep_otherwise found (List.mem_append_left rest isComma) rfl
        failed (takes_anyNode _ _)
      exact ⟨_, .more (Nat.lt_succ_self _) step repeats⟩

theorem Holds.clause {written : WrittenClause} {clauses : List ImportClause}
    (isWritten : written.Written tokens) (ends : EndsClause rest) (holds : Holds rest clauses) :
    Holds (leaves line tokens ++ rest) (written.clause :: clauses) := by
  intro found
  obtain ⟨added, taken⟩ := takes_importClause isWritten ends
  obtain ⟨behind, further, isGap, others⟩ := holds (written.clause :: found)
  obtain ⟨node, member, notTrivia⟩ := exists_node_of_written isWritten line
  rw [List.reverse_cons, List.append_assoc]
  have isShorter : rest.length < (leaves line tokens ++ rest).length := by
    have isSome := List.length_pos_of_mem member
    rw [List.length_append]
    omega
  have step : Takes (throughoutStep importClause anyNode found) (leaves line tokens ++ rest) rest
      (some (written.clause :: found)) added :=
    takes_throughoutStep found (List.mem_append_left rest member) notTrivia taken
  exact ⟨behind, _, isGap, .more isShorter step others⟩

theorem Holds.further {others : List WrittenClause} {clauses : List ImportClause}
    (further : WrittenFurther others tokens) (ends : EndsClause rest)
    (holds : Holds rest clauses) :
    ∀ line, Holds (leaves line tokens ++ rest) (others.map WrittenClause.clause ++ clauses) := by
  induction further with
  | nil => exact fun _ => holds
  | @cons before tokens more first others quiet written further inductionHypothesis =>
      intro line
      rw [show before ++ Token.comma :: (tokens ++ more) = (before ++ [.comma]) ++ tokens ++ more
        by simp, leaves_append, leaves_append, List.append_assoc, List.append_assoc]
      exact ((inductionHypothesis _).clause written (endsClause_further further ends)).comma quiet

theorem endsClause_ending (isEnding : IsEnding tokens) : EndsClause (leaves line tokens) := by
  rcases isEnding with quiet | ⟨before, behind, rfl, quiet, -⟩
  · exact ⟨_, [], (List.append_nil _).symm, quiet.isGap line, fun _ isFirst => nomatch isFirst⟩
  · rw [← List.append_nil (leaves _ _)]
    exact endsClause_comma quiet

theorem holds_ending (isEnding : IsEnding tokens) : Holds (leaves line tokens) [] := by
  rcases isEnding with quiet | ⟨before, behind, rfl, quietBefore, quietBehind⟩
  · exact holds_gap (quiet.isWideGap line)
  · rw [show before ++ Token.comma :: behind = (before ++ [.comma]) ++ behind by simp,
      leaves_append]
    exact (holds_gap (quietBehind.isWideGap _)).comma quietBefore

/-- The names in braces are read one after another. -/
theorem holds_inside {members : List WrittenClause} (isInside : WrittenInside members tokens) :
    Holds (leaves line tokens) (members.map WrittenClause.clause) := by
  cases isInside with
  | empty quiet => exact holds_gap (quiet.isWideGap line)
  | listed written further isEnding =>
      rw [leaves_append, leaves_append, List.map_cons, ← List.append_nil (List.map _ _)]
      exact ((holds_ending isEnding).further further (endsClause_ending isEnding) _).clause written
        (endsClause_further further (endsClause_ending isEnding))

/-! ## Reading declarations -/

variable {between : List Token} {last : Token}

theorem takes_terminator (quiet : IsQuiet between) (isEnd : last.IsEnd) :
    Takes terminator (leaves line (between ++ [last]) ++ rest) rest ()
      ((between ++ [last]).map Expression.leaf) := by
  refine takes_leaf (quiet.isGap line) ?_ ?_ <;> intro place <;> rcases isEnd with isKind | rfl
  · simp [Gap.allows, Node.isOutside, Node.isKind, isKind]
  · rfl
  · simp [Node.isOutside, Node.isKind, isKind]
  · rfl

/-- The end of a declaration is neither a word nor any other symbol. -/
theorem lacks_end {test : Node → Bool} (quiet : IsQuiet between) (isEnd : last.IsEnd)
    (refused : ∀ place, test (.leaf place last) = false) :
    Lacks .quiet test (leaves line (between ++ [last]) ++ rest) := by
  rw [leaves_append, List.append_assoc]
  refine Lacks.behind (quiet.isGap line) (lacks_cons ?_ (refused _) rest)
  rcases isEnd with isKind | rfl
  · simp [Gap.allows, Node.isOutside, Node.isKind, isKind]
  · rfl

theorem endsClause_end (quiet : IsQuiet between) (isEnd : last.IsEnd) :
    EndsClause (leaves line (between ++ [last]) ++ rest) := by
  refine lacks_end quiet isEnd (fun place => ?_)
  rcases isEnd with isKind | rfl
  · simp [Node.isWord, Node.word?, Node.isSymbol, isKind]
  · rfl

theorem lacks_comma_end (quiet : IsQuiet between) (isEnd : last.IsEnd) :
    Lacks .quiet (Node.isSymbol ",") (leaves line (between ++ [last]) ++ rest) := by
  refine lacks_end quiet isEnd (fun place => ?_)
  rcases isEnd with isKind | rfl
  · simp [Node.isSymbol, isKind]
  · rfl

/-- Without a separator and braces behind the first name there is no group. -/
theorem fails_importGroup (marked : Bool) (isName : IsName name) (quiet : IsQuiet between)
    (lacks : Lacks .quiet (Node.isSymbol "\\") rest) :
    Fails (importGroup marked) (leaves line (between ++ name) ++ rest) := by
  have nameEnds : Fails (segment .quiet) rest := (fails_node lacks).bind _
  exact (takes_name (by decide) isName nameEnds quiet).bind_fails ((fails_node lacks).bind _)

/-- Names in braces below a common start. -/
theorem takes_importGroup (marked : Bool) (braces : Node) {start before behind : List Token}
    {place further : Nat} (isName : IsName start) (quiet : IsQuiet between)
    (quietBefore : IsQuiet before) (quietBehind : IsQuiet behind)
    (isGroup : braces.isGroup .curly = true) :
    ∃ added, Takes (importGroup marked)
      (leaves line (between ++ start) ++ (leaves place (before ++ [.backslash]) ++
        (leaves further behind ++ braces :: rest))) rest
      ⟨marked, some (Expression.tokensText start),
        (throughout importClause anyNode braces.inner).1⟩ added := by
  have notAllowed := allows_of_isGroup isGroup
  have noWord : braces.isWord = false := by
    obtain ⟨_, _, _, _, _, rfl⟩ := exists_of_isGroup isGroup
    rfl
  have separator : Takes (symbol .quiet "\\") (leaves place (before ++ [.backslash]) ++
      (leaves further behind ++ braces :: rest)) (leaves further behind ++ braces :: rest) () _ :=
    takes_leafSymbol (quietBefore.isGap place) rfl
  have nameEnds : Fails (segment .quiet) (leaves place (before ++ [.backslash]) ++
      (leaves further behind ++ braces :: rest)) := by
    refine separator.bind_fails (Fails.discard (fails_word ?_))
    exact Lacks.behind (quietBehind.isWideGap further) (lacks_cons (notAllowed _) noWord _)
  have members : Takes (next .quiet (Node.isGroup .curly)) (leaves further behind ++ braces :: rest)
      rest braces _ := takes_next (quietBehind.isGap further) (notAllowed _) isGroup
  exact ⟨_, (takes_name (by decide) isName nameEnds quiet).bind (separator.bind (members.bind
    ((takes_push braces.plain rest).returns (takes_pure _ rest))))⟩

/-- The keyword of an import is no keyword of a namespace. -/
theorem fails_namespaceDefinition {keyword : Token} (isGap : IsGap .wide (leaves line lead))
    (isUse : keyword.IsKeyword "use") (more : List Token) (rest : List Node) :
    Fails namespaceDefinition (leaves line (lead ++ keyword :: more) ++ rest) := by
  refine Fails.bind (fails_node ?_) _
  rw [leaves_append, List.append_assoc]
  refine Lacks.behind isGap (lacks_leaf (isTrivia_of_word isUse.1) ?_ _)
  simp [Node.isKeyword, Node.keyword?, word?_leaf isUse.1, isUse.2]

/-- An import behind its keyword and its marker. -/
def importBehind (marked : Bool) : Reader Statement := do
  let declared ← importGroup marked <|> importList marked
  terminator
  return .imports declared

/-- The keyword and the marker of an import are taken in front of its names. -/
theorem takes_import {keyword : Token} {more : List Token} {behind : List Node}
    {declared : Statement} (isGap : IsGap .wide (leaves line between))
    (isUse : keyword.IsKeyword "use") (isLead : IsLead marked lead) (isName : IsName name)
    (unmarked : marked = false → StartsUnmarked name)
    (body : ∀ place gap, IsQuiet gap → ∃ added, Takes (importBehind marked)
      (leaves place (gap ++ (name ++ more)) ++ rest) behind declared added) :
    ∃ added, Takes keptStatement
      (leaves line (between ++ keyword :: (lead ++ (name ++ more))) ++ rest) behind declared
      added := by
  have noNamespace := fails_namespaceDefinition isGap isUse (lead ++ (name ++ more)) rest
  rw [show between ++ keyword :: (lead ++ (name ++ more)) =
    (between ++ [keyword]) ++ (lead ++ (name ++ more)) by simp, leaves_append,
    List.append_assoc] at noNamespace ⊢
  obtain ⟨taken, gap, quiet, marker⟩ := takes_importMarker isLead isName unmarked more
  obtain ⟨added, read⟩ := body _ gap quiet
  exact ⟨_, noNamespace.orElse_takes
    (Takes.orElse ((takes_leafKeyword isGap isUse).bind (marker.bind read)) _)⟩

theorem takes_nameList {given more : List Token} {first : WrittenClause}
    {others : List WrittenClause} (quietLead : IsQuiet lead) (valid : first.Valid)
    (notMarked : first.marked = false)
    (isAlias : IsAlias first.localName given) (further : WrittenFurther others more)
    (quiet : IsQuiet between) (isEnd : last.IsEnd) (marked : Bool) (line : Nat) :
    ∃ added, Takes (importBehind marked)
      (leaves line (lead ++ (first.name ++ (given ++ (more ++ (between ++ [last]))))) ++ rest) rest
      (.imports (WrittenImport.list marked (first :: others)).declared) added := by
  have ends : ∀ place, EndsClause (leaves place (between ++ [last]) ++ rest) :=
    fun _ => endsClause_end quiet isEnd
  have noGroup : Fails (importGroup marked)
      (leaves line (lead ++ (first.name ++ (given ++ (more ++ (between ++ [last]))))) ++ rest) := by
    rw [← List.append_assoc lead, leaves_append, List.append_assoc]
    refine fails_importGroup marked valid.isName quietLead ?_
    rw [leaves_append, List.append_assoc]
    refine lacks_backslash_alias isAlias ?_
    rw [leaves_append, List.append_assoc]
    exact endsClause_further further (ends _)
  have isFirst : first.Written (lead ++ (first.name ++ given)) :=
    ⟨by rw [notMarked]; exact .unmarked quietLead, valid, isAlias⟩
  have regrouped : lead ++ (first.name ++ (given ++ (more ++ (between ++ [last])))) =
      (lead ++ (first.name ++ given) ++ more) ++ (between ++ [last]) := by simp
  rw [regrouped, leaves_append, List.append_assoc] at noGroup ⊢
  obtain ⟨added, names⟩ := takes_importList marked isFirst further (ends _)
    (lacks_comma_end quiet isEnd) line
  exact ⟨_, (noGroup.orElse_takes names).bind
    ((takes_terminator quiet isEnd).returns (takes_pure _ rest))⟩

theorem takes_namesInBraces {start before behind inside : List Token} {opening closing : Token}
    {members : List WrittenClause} (quietLead : IsQuiet lead) (isName : IsName start)
    (quietBefore : IsQuiet before) (quietBehind : IsQuiet behind)
    (isOpening : opening.kind = .opening .curly) (isInside : WrittenInside members inside)
    (quiet : IsQuiet between) (isEnd : last.IsEnd) (marked : Bool) (content : Content)
    (line place below further : Nat) :
    ∃ added, Takes (importBehind marked)
      (leaves line (lead ++ (start ++ (before ++ .backslash :: behind))) ++
        (.group place opening (leaves below inside) (some closing) content ::
          leaves further (between ++ [last]) ++ rest)) rest
      (.imports (WrittenImport.group marked start members).declared) added := by
  rw [show lead ++ (start ++ (before ++ Token.backslash :: behind)) =
    (lead ++ start) ++ ((before ++ [.backslash]) ++ behind) by simp, leaves_append line,
    leaves_append _ (before ++ [Token.backslash]), List.append_assoc, List.append_assoc]
  obtain ⟨added, names⟩ := takes_importGroup marked
    (.group place opening (leaves below inside) (some closing) content) isName quietLead
    quietBefore quietBehind (by simp [Node.isGroup, isOpening])
  rw [show Node.inner (.group place opening (leaves below inside) (some closing) content) =
    leaves below inside from rfl, (holds_inside isInside).throughout] at names
  exact ⟨_, (names.orElse _).bind
    ((takes_terminator quiet isEnd).returns (takes_pure _ rest))⟩

end Grammar

namespace WrittenImport

open Grammar

variable {form : WrittenImport} {lead tokens : List Token}

/-- A written declaration is read back, whatever stands before and behind. -/
theorem Written.reads (written : form.Written tokens) (isTrivia : ∀ token ∈ lead, token.isTrivia)
    (line : Nat) :
    ∃ nodes behind, Gathers line (lead ++ tokens) nodes behind ∧
      (∃ node ∈ nodes, node.isTrivia = false) ∧
      ∀ rest, ∃ added, Takes keptStatement (nodes ++ rest) rest (.imports form.declared) added := by
  have leadFree : ∀ token ∈ lead, token.isBracket = false :=
    fun token member => noBracket_of_trivia (isTrivia token member)
  have isGap := isGap_of_trivia isTrivia line
  cases written with
  | @list keyword last marked mark given more between first others isUse isLead isFirst noneMarked
      isAlias further quiet isEnd =>
      have isUnmarked := isFirst.unmarked (noneMarked first List.mem_cons_self)
      refine ⟨_, _, gathers_leaves line ?_, ?_, ?_⟩
      · simp only [List.forall_mem_append, List.forall_mem_cons]
        exact ⟨leadFree, noBracket_of_word isUse.1, isLead.noBracket,
          isFirst.isName.noBracket, isAlias.noBracket, further.noBracket, quiet.noBracket,
          isEnd.noBracket, List.forall_mem_nil _⟩
      · obtain ⟨place, isLeaf⟩ := exists_leaf_of_mem line
          (List.mem_append_right lead List.mem_cons_self)
        exact ⟨_, isLeaf, isTrivia_of_word isUse.1⟩
      · intro rest
        refine takes_import isGap isUse isLead isFirst.isName (fun _ => isUnmarked)
          (fun place gap quietGap => ?_)
        exact takes_nameList quietGap isFirst (noneMarked first List.mem_cons_self) isAlias further
          quiet isEnd marked place
  | @group keyword opening closing last marked mark start before behind inside between members isUse
      isLead isName unmarked quietBefore quietBehind isOpening isInside areLocal isClosing quiet
      isEnd =>
      have headFree : ∀ token ∈ lead ++ keyword ::
          (mark ++ (start ++ (before ++ .backslash :: behind))), token.isBracket = false := by
        simp only [List.forall_mem_append, List.forall_mem_cons]
        exact ⟨leadFree, noBracket_of_word isUse.1, isLead.noBracket, isName.noBracket,
          quietBefore.noBracket, rfl, quietBehind.noBracket⟩
      have endFree : ∀ token ∈ between ++ [last], token.isBracket = false :=
        List.forall_mem_append.mpr
          ⟨quiet.noBracket, List.forall_mem_singleton.mpr isEnd.noBracket⟩
      rw [← List.append_assoc lead]
      refine ⟨_, _, (gathers_leaves line headFree).append
        ((gathers_group isOpening isClosing (gathers_leaves _ isInside.noBracket)).append
          (gathers_leaves _ endFree)), ?_, ?_⟩
      · obtain ⟨place, isLeaf⟩ := exists_leaf_of_mem line
          (List.mem_append_right lead List.mem_cons_self)
        exact ⟨_, List.mem_append_left _ isLeaf, isTrivia_of_word isUse.1⟩
      · intro rest
        rw [List.append_assoc]
        refine takes_import isGap isUse isLead isName unmarked (fun place gap quietGap => ?_)
        exact takes_namesInBraces quietGap isName quietBefore quietBehind isOpening isInside quiet
          isEnd marked _ place _ _ _

end WrittenImport

/-! ## Reading files -/

/-- Among statements, one that is kept is read as such. -/
theorem Grammar.takes_statement {nodes rest bound : List Node} {kept : Statement}
    {added : List Expression} (taken : Takes keptStatement nodes rest kept added)
    (isBound : bound ≠ []) : Takes (statement bound) nodes rest (some kept) added := by
  cases bound with
  | nil => exact absurd rfl isBound
  | cons _ bound =>
      have isKept : Takes (do return some (← keptStatement)) nodes rest (some kept) added :=
        taken.returns (takes_pure _ rest)
      exact isKept.orElse _

namespace WrittenImports

open Grammar

/-- Each declaration is kept as a statement. -/
theorem reads {forms : List WrittenImport} {tokens : List Token}
    (written : WrittenImports forms tokens) (line : Nat) :
    ∃ nodes behind, Gathers line tokens nodes behind ∧ (forms ≠ [] → nodes ≠ []) ∧
      ∀ bound : List Node, (forms ≠ [] → bound ≠ []) → ∀ found, ∃ rest added, IsGap .wide rest ∧
        Repeats (throughoutStep (statement bound) passOver) found nodes rest
          ((forms.map (fun form => some (Statement.imports form.declared))).reverse ++ found)
          added := by
  induction written generalizing line with
  | @none tokens isTrivia =>
      have isFree : ∀ token ∈ tokens, token.isBracket = false :=
        fun token member => noBracket_of_trivia (isTrivia token member)
      have isGap := isGap_of_trivia isTrivia line
      refine ⟨_, _, gathers_leaves line isFree, fun isSome => absurd rfl isSome, ?_⟩
      exact fun _ _ found => ⟨_, [], isGap, .stop (takes_throughoutStep_end found isGap)⟩
  | @more lead tokens rest form others isTrivia written further inductionHypothesis =>
      obtain ⟨nodes, middle, gathers, ⟨node, member, notTrivia⟩, taken⟩ :=
        written.reads isTrivia line
      obtain ⟨more, behind, gathersMore, -, takenMore⟩ := inductionHypothesis middle
      refine ⟨_, _, gathers.append gathersMore, fun _ => ?_, ?_⟩
      · exact List.append_ne_nil_of_left_ne_nil (List.ne_nil_of_mem member) more
      intro bound isLong found
      have isBound := isLong (List.cons_ne_nil _ _)
      obtain ⟨rest, added, isGap, repeats⟩ := takenMore bound (fun _ => isBound)
        (some (.imports form.declared) :: found)
      obtain ⟨ofFirst, kept⟩ := taken more
      have step : Takes (throughoutStep (statement bound) passOver found) (nodes ++ more) more
          (some (some (.imports form.declared) :: found)) ofFirst :=
        takes_throughoutStep found (List.mem_append_left more member) notTrivia
          (takes_statement kept isBound)
      have isShorter : more.length < (nodes ++ more).length := by
        have isSome := List.length_pos_of_mem member
        rw [List.length_append]
        omega
      rw [List.map_cons, List.reverse_cons, List.append_assoc]
      exact ⟨rest, _, isGap, .more isShorter step repeats⟩

/-- The statements of a file of imports are its declarations in order. -/
theorem statements_ofText {forms : List WrittenImport} {text : String}
    (written : WrittenImports forms (scan text)) :
    (SourceFile.ofText text).statements = forms.map (fun form => .imports form.declared) := by
  obtain ⟨nodes, behind, gathers, isSome, reads⟩ := written.reads 1
  obtain ⟨rest, added, isGap, repeats⟩ := reads nodes isSome []
  show (statementsOf (Grouped.ofTokens (scan text)).nodes).1 = _
  rw [gathers.ofTokens]
  unfold statementsOf
  dsimp only
  rw [repeats.throughout isGap, List.append_nil, List.reverse_reverse]
  simp

end WrittenImports

end FactoryProxy.Php
