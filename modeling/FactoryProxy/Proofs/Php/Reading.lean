import FactoryProxy.Php.Reader
import Mathlib.Data.List.TakeDrop
import Mathlib.Data.List.TakeWhile

/-!
Contract: what a reader takes, combinator by combinator.

A reader that reads written syntax back takes the nodes of that syntax and stops in front of the
rest, whatever has been read before. Where its rule does not apply it fails, whatever has been
read before.

Owns: `Takes` and `Fails`, and their rules for the combinators: sequence, choice, gaps and
single nodes, repetition, and parts that are taken away again.
Does not own: any rule of the language.
-/

namespace FactoryProxy.Php.Reader

variable {α β : Type} {reader other : Reader α} {follow : α → Reader β}
  {nodes middle rest : List Node} {value : α} {result : β} {added further : List Expression}

/-- From the nodes the reader takes all that stands before the rest, passes nothing over, gives
the value and adds the parts. -/
def Takes (reader : Reader α) (nodes rest : List Node) (value : α) (added : List Expression) :
    Prop :=
  ∀ parts regular,
    reader ⟨nodes, parts, regular⟩ = some (value, ⟨rest, added.reverse ++ parts, regular⟩)

/-- The rule of the reader does not apply to the nodes. -/
def Fails (reader : Reader α) (nodes : List Node) : Prop :=
  ∀ parts regular, reader ⟨nodes, parts, regular⟩ = none

/-! ## Sequence -/

theorem run_bind_some {reading behind : Reading} (taken : reader reading = some (value, behind)) :
    (reader >>= follow) reading = follow value behind := by
  show (reader reading).bind (fun found => follow found.1 found.2) = _
  rw [taken]
  rfl

theorem takes_pure (value : α) (rest : List Node) : Takes (pure value) rest rest value [] :=
  fun _ _ => rfl

theorem Takes.bind (first : Takes reader nodes middle value added)
    (second : Takes (follow value) middle rest result further) :
    Takes (reader >>= follow) nodes rest result (added ++ further) := by
  intro parts regular
  rw [run_bind_some (first parts regular), second, List.reverse_append, List.append_assoc]

/-- What follows gives a result only. -/
theorem Takes.returns (first : Takes reader nodes rest value added)
    (second : Takes (follow value) rest rest result []) :
    Takes (reader >>= follow) nodes rest result added := by
  rw [← List.append_nil added]
  exact first.bind second

theorem Takes.bind_fails (first : Takes reader nodes middle value added)
    (second : Fails (follow value) middle) : Fails (reader >>= follow) nodes := by
  intro parts regular
  rw [run_bind_some (first parts regular), second]

theorem Fails.bind (failed : Fails reader nodes) (follow : α → Reader β) :
    Fails (reader >>= follow) nodes := by
  intro parts regular
  show (reader ⟨nodes, parts, regular⟩).bind (fun found => follow found.1 found.2) = _
  rw [failed parts regular]
  rfl

theorem Takes.discard (taken : Takes reader nodes rest value added) :
    Takes (discard reader) nodes rest () added := by
  intro parts regular
  show (reader ⟨nodes, parts, regular⟩).bind (fun found => some ((), found.2)) = _
  rw [taken parts regular]
  rfl

theorem Fails.discard (failed : Fails reader nodes) : Fails (Functor.discard reader) nodes := by
  intro parts regular
  show (reader ⟨nodes, parts, regular⟩).bind (fun found => some ((), found.2)) = _
  rw [failed parts regular]
  rfl

/-! ## Choice -/

theorem Takes.orElse (taken : Takes reader nodes rest value added) (other : Reader α) :
    Takes (reader <|> other) nodes rest value added := by
  intro parts regular
  show (reader ⟨nodes, parts, regular⟩ <|> other ⟨nodes, parts, regular⟩) = _
  rw [taken parts regular]
  rfl

theorem Fails.orElse_takes (failed : Fails reader nodes)
    (taken : Takes other nodes rest value added) :
    Takes (reader <|> other) nodes rest value added := by
  intro parts regular
  show (reader ⟨nodes, parts, regular⟩ <|> other ⟨nodes, parts, regular⟩) = _
  rw [failed parts regular, taken parts regular]
  rfl

theorem Fails.orElse (failed : Fails reader nodes) (otherFailed : Fails other nodes) :
    Fails (reader <|> other) nodes := by
  intro parts regular
  show (reader ⟨nodes, parts, regular⟩ <|> other ⟨nodes, parts, regular⟩) = _
  rw [failed parts regular, otherFailed parts regular]
  rfl

theorem Takes.maybe {reader : Reader Unit} (taken : Takes reader nodes rest () added) :
    Takes (maybe reader) nodes rest true added :=
  (taken.returns (takes_pure true rest)).orElse (return false)

theorem Fails.maybe {reader : Reader Unit} (failed : Fails reader rest) :
    Takes (maybe reader) rest rest false [] :=
  (failed.bind _).orElse_takes (takes_pure false rest)

/-! ## Gaps -/

/-- The gap allows all of the nodes. -/
def IsGap (gap : Gap) (nodes : List Node) : Prop :=
  ∀ node ∈ nodes, gap.allows node = true

/-- Behind the gap the nodes go on, if at all, with one that does not pass the test. -/
def Lacks (gap : Gap) (test : Node → Bool) (nodes : List Node) : Prop :=
  ∃ between rest, nodes = between ++ rest ∧ IsGap gap between ∧
    ∀ first, rest.head? = some first → gap.allows first = false ∧ test first = false

variable {gap : Gap} {test : Node → Bool} {between : List Node} {node : Node}

theorem isGap_nil (gap : Gap) : IsGap gap [] :=
  List.forall_mem_nil _

theorem lacks_nil (gap : Gap) (test : Node → Bool) : Lacks gap test [] :=
  ⟨[], [], rfl, isGap_nil gap, fun _ isFirst => nomatch isFirst⟩

theorem lacks_cons (notAllowed : gap.allows node = false) (refused : test node = false)
    (rest : List Node) : Lacks gap test (node :: rest) := by
  refine ⟨[], node :: rest, rfl, isGap_nil gap, fun first isFirst => ?_⟩
  rw [← Option.some.inj isFirst]
  exact ⟨notAllowed, refused⟩

theorem Lacks.behind (isGap : IsGap gap between) (lacks : Lacks gap test nodes) :
    Lacks gap test (between ++ nodes) := by
  obtain ⟨more, rest, rfl, isMore, refused⟩ := lacks
  refine ⟨between ++ more, rest, (List.append_assoc _ _ _).symm, ?_, refused⟩
  exact List.forall_mem_append.mpr ⟨isGap, isMore⟩

theorem Lacks.imp {stronger : Node → Bool} (lacks : Lacks gap test nodes)
    (implied : ∀ node, test node = false → stronger node = false) :
    Lacks gap stronger nodes := by
  obtain ⟨between, rest, rfl, isGap, refused⟩ := lacks
  refine ⟨between, rest, rfl, isGap, fun first isFirst => ?_⟩
  exact ⟨(refused first isFirst).1, implied first (refused first isFirst).2⟩

theorem span_eq (isGap : IsGap gap between)
    (stops : ∀ first, rest.head? = some first → gap.allows first = false) :
    (between ++ rest).span gap.allows = (between, rest) := by
  rw [List.span_eq_takeWhile_dropWhile, List.takeWhile_append_of_pos isGap,
    List.dropWhile_append_of_pos isGap]
  cases rest with
  | nil => simp
  | cons first behind =>
      have isStop := stops first rfl
      rw [List.takeWhile_cons_of_neg (by simp [isStop]),
        List.dropWhile_cons_of_neg (by simp [isStop]), List.append_nil]

theorem takes_skip (isGap : IsGap gap between)
    (stops : ∀ first, rest.head? = some first → gap.allows first = false) :
    Takes (skip gap) (between ++ rest) rest () (between.map Node.plain) := by
  have pushed : ∀ (between : List Node) (parts : List Expression),
      between.foldl (fun parts node => node.plain :: parts) parts =
        (between.map Node.plain).reverse ++ parts := by
    intro between
    induction between with
    | nil => exact fun _ => rfl
    | cons first others inductionHypothesis =>
        intro parts
        rw [List.foldl_cons, inductionHypothesis, List.map_cons, List.reverse_cons,
          List.append_assoc]
        rfl
  intro parts regular
  show some ((), (⟨((between ++ rest).span gap.allows).2,
    ((between ++ rest).span gap.allows).1.foldl (fun parts node => node.plain :: parts) parts,
    regular⟩ : Reading)) = _
  rw [span_eq isGap stops, pushed]

/-- The node behind a gap is seen, and all is left. -/
theorem takes_sees (isGap : IsGap gap between) (notAllowed : gap.allows node = false)
    (passes : test node = true) :
    Takes (sees gap test) (between ++ node :: rest) (between ++ node :: rest) true [] := by
  intro parts regular
  show some (((between ++ node :: rest).dropWhile gap.allows).head?.any test, _) = _
  rw [List.dropWhile_append_of_pos isGap, List.dropWhile_cons_of_neg (by simp [notAllowed])]
  simp [passes]

theorem Lacks.sees (lacks : Lacks gap test nodes) :
    Takes (sees gap test) nodes nodes false [] := by
  obtain ⟨between, rest, rfl, isGap, refused⟩ := lacks
  intro parts regular
  show some (((between ++ rest).dropWhile gap.allows).head?.any test, _) = _
  rw [List.dropWhile_append_of_pos isGap]
  cases rest with
  | nil => rfl
  | cons first behind =>
      obtain ⟨notAllowed, isRefused⟩ := refused first rfl
      rw [List.dropWhile_cons_of_neg (by simp [notAllowed])]
      simp [isRefused]

/-- The node behind a gap is given, and all is left. -/
theorem takes_peek (isGap : IsGap gap between) (notAllowed : gap.allows node = false)
    (rest : List Node) :
    Takes (peek gap) (between ++ node :: rest) (between ++ node :: rest) (some node) [] := by
  intro parts regular
  show some (((between ++ node :: rest).dropWhile gap.allows).head?, _) = _
  rw [List.dropWhile_append_of_pos isGap, List.dropWhile_cons_of_neg (by simp [notAllowed])]
  rfl

/-! ## Single nodes -/

theorem takes_next (isGap : IsGap gap between) (notAllowed : gap.allows node = false)
    (passes : test node = true) :
    Takes (next gap test) (between ++ node :: rest) rest node (between.map Node.plain) := by
  intro parts regular
  have skipped : Takes (skip gap) (between ++ node :: rest) (node :: rest) ()
      (between.map Node.plain) := by
    refine takes_skip isGap (fun first isFirst => ?_)
    rw [← Option.some.inj isFirst]
    exact notAllowed
  refine (run_bind_some (skipped parts regular)).trans ?_
  show (if test node then _ else _ : Reader Node) _ = _
  rw [if_pos passes]
  rfl

theorem fails_next (lacks : Lacks gap test nodes) : Fails (next gap test) nodes := by
  obtain ⟨between, rest, rfl, isGap, refused⟩ := lacks
  intro parts regular
  have skipped := takes_skip isGap (fun first isFirst => (refused first isFirst).1) parts regular
  refine (run_bind_some skipped).trans ?_
  cases rest with
  | nil => rfl
  | cons first behind =>
      show (if test first then _ else _ : Reader Node) _ = _
      rw [if_neg (by simp [(refused first rfl).2])]
      rfl

theorem takes_push (part : Expression) (rest : List Node) :
    Takes (push part) rest rest () [part] :=
  fun _ _ => rfl

/-- What has been read without passing over anything changes nothing. -/
theorem takes_note {inner : Bool} (isRegular : inner = true) (rest : List Node) :
    Takes (note inner) rest rest () [] := by
  intro parts regular
  show some ((), (⟨rest, parts, regular && inner⟩ : Reading)) = _
  rw [isRegular, Bool.and_true]
  rfl

theorem takes_node (isGap : IsGap gap between) (notAllowed : gap.allows node = false)
    (passes : test node = true) :
    Takes (Reader.node gap test) (between ++ node :: rest) rest ()
      (between.map Node.plain ++ [node.plain]) :=
  (takes_next isGap notAllowed passes).bind (takes_push node.plain rest)

theorem fails_node (lacks : Lacks gap test nodes) : Fails (Reader.node gap test) nodes :=
  (fails_next lacks).bind _

/-- A word of the text. -/
theorem takes_word (isGap : IsGap gap between) (notAllowed : gap.allows node = false)
    {text : String} (isWord : node.word? = some text) :
    Takes (word gap) (between ++ node :: rest) rest text
      (between.map Node.plain ++ [node.plain]) := by
  have passes : node.isWord = true := by rw [Node.isWord, isWord]; rfl
  have isText : node.word?.getD "" = text := by rw [isWord]; rfl
  rw [← isText]
  exact (takes_next isGap notAllowed passes).bind
    ((takes_push node.plain rest).returns (takes_pure _ rest))

theorem fails_word (lacks : Lacks gap Node.isWord nodes) : Fails (word gap) nodes :=
  (fails_next lacks).bind _

/-! ## Groups -/

variable {bracket : Bracket} {inside : Content → Inside}

theorem exists_of_isGroup (isGroup : node.isGroup bracket = true) :
    ∃ line opening inner closing content, node = .group line opening inner closing content := by
  cases node with
  | leaf => cases isGroup
  | group line opening inner closing content =>
      exact ⟨line, opening, inner, closing, content, rfl⟩

theorem isTrivia_of_isGroup (isGroup : node.isGroup bracket = true) : node.isTrivia = false := by
  obtain ⟨_, _, _, _, _, rfl⟩ := exists_of_isGroup isGroup
  rfl

/-- No group stands in a gap. -/
theorem allows_of_isGroup (isGroup : node.isGroup bracket = true) (gap : Gap) :
    gap.allows node = false := by
  cases gap with
  | nothing => rfl
  | quiet =>
      show (node.isTrivia && !node.isOutside) = false
      rw [isTrivia_of_isGroup isGroup]
      rfl
  | wide => exact isTrivia_of_isGroup isGroup

theorem takes_group (isGap : IsGap gap between) (isGroup : node.isGroup bracket = true)
    (inside : Content → Inside) (isRegular : (inside node.content).regular = true)
    (rest : List Node) :
    ∃ added,
      Takes (group gap bracket inside) (between ++ node :: rest) rest node.content added := by
  have isAdded : Takes (add node inside) rest rest () _ :=
    (takes_push _ rest).returns (takes_note isRegular rest)
  exact ⟨_, (takes_next isGap (allows_of_isGroup isGroup gap) isGroup).bind
    (isAdded.returns (takes_pure node.content rest))⟩

theorem fails_group (lacks : Lacks gap (Node.isGroup bracket) nodes) :
    Fails (group gap bracket inside) nodes :=
  (fails_next lacks).bind _

/-! ## Repetition -/

/-- The step is repeated, each time on at least one node, and stops in front of the rest. -/
inductive Repeats {σ : Type} (step : σ → Reader (Option σ)) :
    σ → List Node → List Node → σ → List Expression → Prop where
  | stop {state : σ} {rest : List Node} (stopped : Takes (step state) rest rest none []) :
      Repeats step state rest rest state []
  | more {state following last : σ} {nodes middle rest : List Node}
      {added further : List Expression} (isShorter : middle.length < nodes.length)
      (taken : Takes (step state) nodes middle (some following) added)
      (others : Repeats step following middle rest last further) :
      Repeats step state nodes rest last (added ++ further)

/-- A bound that is long enough does not matter. -/
theorem Repeats.iterate {σ : Type} {step : σ → Reader (Option σ)} {state last : σ}
    (repeats : Repeats step state nodes rest last added) (parts : List Expression)
    (regular : Bool) :
    ∀ bound : List Node, nodes.length ≤ bound.length →
      Reader.iterate step bound state ⟨nodes, parts, regular⟩ =
        some (last, ⟨rest, added.reverse ++ parts, regular⟩) := by
  induction repeats generalizing parts with
  | stop stopped =>
      intro bound _
      cases bound with
      | nil => rfl
      | cons _ bound =>
          unfold Reader.iterate
          rw [stopped parts regular]
  | more isShorter taken _ inductionHypothesis =>
      intro bound isLong
      cases bound with
      | nil =>
          rw [List.length_nil] at isLong
          omega
      | cons _ bound =>
          rw [List.length_cons] at isLong
          unfold Reader.iterate
          rw [taken parts regular]
          dsimp only
          rw [inductionHypothesis _ bound (by omega), List.reverse_append, List.append_assoc]

theorem Repeats.takes {σ : Type} {step : σ → Reader (Option σ)} {state last : σ}
    (repeats : Repeats step state nodes rest last added) :
    Takes (repeatFrom state step) nodes rest last added :=
  fun parts regular => repeats.iterate parts regular nodes (Nat.le_refl _)

/-- The reader applies again and again, each time to at least one node, and then fails in front
of the rest. -/
inductive Collects (reader : Reader α) :
    List Node → List Node → List α → List Expression → Prop where
  | nil {rest : List Node} (failed : Fails reader rest) : Collects reader rest rest [] []
  | cons {nodes middle rest : List Node} {value : α} {values : List α}
      {added further : List Expression} (isShorter : middle.length < nodes.length)
      (taken : Takes reader nodes middle value added)
      (others : Collects reader middle rest values further) :
      Collects reader nodes rest (value :: values) (added ++ further)

theorem Collects.many {reader : Reader Unit} {values : List Unit}
    (collects : Collects reader nodes rest values added) :
    Takes (many reader) nodes rest () added := by
  apply Repeats.takes
  induction collects with
  | nil failed => exact .stop ((failed.bind _).orElse_takes (takes_pure none _))
  | cons isShorter taken _ inductionHypothesis =>
      refine .more isShorter (Takes.orElse ?_ _) inductionHypothesis
      exact taken.returns (takes_pure _ _)

theorem Collects.collect {values : List α} (collects : Collects reader nodes rest values added) :
    Takes (collect reader) nodes rest values added := by
  -- The readings are gathered in reverse, behind those that were there before.
  have repeats : ∀ found : List α, Repeats
      (fun found => (do return some ((← reader) :: found)) <|> return none) found nodes rest
      (values.reverse ++ found) added := by
    induction collects with
    | nil failed => exact fun _ => .stop ((failed.bind _).orElse_takes (takes_pure none _))
    | cons isShorter taken _ inductionHypothesis =>
        intro found
        rw [List.reverse_cons, List.append_assoc]
        refine .more isShorter (Takes.orElse ?_ _) (inductionHypothesis (_ :: found))
        exact taken.returns (takes_pure _ _)
  have given : Takes (pure (values.reverse ++ []).reverse) rest rest values [] := by
    rw [List.append_nil, List.reverse_reverse]
    exact takes_pure values rest
  exact (repeats []).takes.returns given

/-! ## Parts -/

/-- The parts are given and taken away again. -/
theorem Takes.capture (taken : Takes reader nodes rest value added) :
    Takes (capture reader) nodes rest (value, added) [] := by
  intro parts regular
  show (reader ⟨nodes, [], regular⟩).bind _ = _
  rw [taken [] regular]
  show some ((value, (added.reverse ++ []).reverse), (⟨rest, parts, regular⟩ : Reading)) = _
  rw [List.append_nil, List.reverse_reverse]
  rfl

theorem Fails.capture (failed : Fails reader nodes) : Fails (Reader.capture reader) nodes := by
  intro parts regular
  show (reader ⟨nodes, [], regular⟩).bind _ = _
  rw [failed [] regular]
  rfl

/-- The parts are given and stay. -/
theorem Takes.record (taken : Takes reader nodes rest value added) :
    Takes (record reader) nodes rest (value, added) added := by
  intro parts regular
  refine (run_bind_some (taken.capture parts regular)).trans ?_
  rfl

theorem Takes.textOf {reader : Reader Unit} (taken : Takes reader nodes rest () added) :
    Takes (textOf reader) nodes rest (Expression.textOf added) added :=
  taken.record.returns (takes_pure _ rest)

theorem Fails.textOf {reader : Reader Unit} (failed : Fails reader nodes) :
    Fails (textOf reader) nodes :=
  (failed.capture.bind _).bind _

/-! ## Whole lists -/

/-- A reader that leaves nothing takes the whole list. -/
theorem Takes.whole? (taken : Takes reader nodes [] value added) :
    whole? reader nodes = some (value, ⟨added, true⟩) := by
  have skipped : Takes (skip .wide) [] [] () [] := takes_skip (isGap_nil .wide) (by simp)
  have whole : Takes (do let value ← reader; skip .wide; return value) nodes [] value added :=
    taken.returns (skipped.returns (takes_pure value []))
  unfold Reader.whole?
  rw [whole [] true]
  simp

/-- One step through a list by a rule, or by what is done where the rule does not apply. -/
def throughoutStep (rule : Reader α) (otherwise : Reader Unit) (found : List α) :
    Reader (Option (List α)) := do
  if ← atEnd then return none
  (do return some ((← rule) :: found)) <|> (do otherwise; return some found)

theorem takes_atEnd (isGap : IsGap .wide rest) : Takes atEnd rest rest true [] := by
  intro parts regular
  show some ((rest.dropWhile Gap.wide.allows).head?.isNone, _) = _
  rw [List.dropWhile_eq_nil_iff.mpr isGap]
  rfl

theorem takes_atEnd_of_mem (member : node ∈ nodes) (notTrivia : node.isTrivia = false) :
    Takes atEnd nodes nodes false [] := by
  have isSome : (nodes.dropWhile Gap.wide.allows).head? ≠ none := by
    intro isNone
    have allTrivia := List.dropWhile_eq_nil_iff.mp (List.head?_eq_none_iff.mp isNone) node member
    rw [show Gap.wide.allows node = node.isTrivia from rfl, notTrivia] at allTrivia
    cases allTrivia
  intro parts regular
  show some ((nodes.dropWhile Gap.wide.allows).head?.isNone, _) = _
  cases found : (nodes.dropWhile Gap.wide.allows).head? with
  | none => exact absurd found isSome
  | some first => rfl

variable {rule : Reader α} {otherwise : Reader Unit} {found : List α}

/-- At the end of the list the steps stop. -/
theorem takes_throughoutStep_end (found : List α) (isGap : IsGap .wide rest) :
    Takes (throughoutStep rule otherwise found) rest rest none [] :=
  (takes_atEnd isGap).bind (takes_pure none rest)

/-- Where the rule applies, a step adds what it gives. -/
theorem takes_throughoutStep (found : List α) (member : node ∈ nodes)
    (notTrivia : node.isTrivia = false) (taken : Takes rule nodes rest value added) :
    Takes (throughoutStep rule otherwise found) nodes rest (some (value :: found)) added := by
  have applied : Takes (do return some ((← rule) :: found)) nodes rest (some (value :: found))
      added := taken.returns (takes_pure _ rest)
  exact (takes_atEnd_of_mem member notTrivia).bind (applied.orElse _)

/-- Where the rule does not apply, a step adds nothing. -/
theorem takes_throughoutStep_otherwise (found : List α) (member : node ∈ nodes)
    (notTrivia : node.isTrivia = false) (failed : Fails rule nodes)
    (taken : Takes otherwise nodes rest () added) :
    Takes (throughoutStep rule otherwise found) nodes rest (some found) added :=
  (takes_atEnd_of_mem member notTrivia).bind
    ((failed.bind _).orElse_takes (taken.returns (takes_pure _ rest)))

/-- The list is read to its end by steps of which each takes something. -/
theorem Repeats.throughout
    (repeats : Repeats (throughoutStep rule otherwise) [] nodes rest found added)
    (isGap : IsGap .wide rest) :
    throughout rule otherwise nodes = (found.reverse, ⟨added ++ rest.map Node.plain, true⟩) := by
  have skipped : Takes (skip .wide) rest [] () (rest.map Node.plain) := by
    have whole : Takes (skip .wide) (rest ++ []) [] () _ :=
      takes_skip isGap (fun _ isFirst => nomatch isFirst)
    rwa [List.append_nil] at whole
  have whole : Takes (do
      let found ← repeatFrom ([] : List α) (throughoutStep rule otherwise)
      skip .wide
      return found) nodes [] found (added ++ rest.map Node.plain) :=
    repeats.takes.bind (skipped.returns (takes_pure found []))
  unfold Reader.throughout
  dsimp only
  split
  · rename_i given reading isGiven
    have same := isGiven.symm.trans (whole [] true)
    obtain ⟨rfl, rfl⟩ := Prod.mk.inj (Option.some.inj same)
    rw [List.append_nil, List.reverse_reverse]
  · rename_i isNone
    exact absurd (isNone.symm.trans (whole [] true)) (Option.some_ne_none _).symm

/-- The rule takes the whole list, trivia at its end aside, in steps that give the values. -/
inductive Consists (rule : Reader α) : List Node → List α → Prop where
  | nil {rest : List Node} (isGap : IsGap .wide rest) : Consists rule rest []
  | cons {nodes middle : List Node} {node : Node} {value : α} {values : List α}
      {added : List Expression} (member : node ∈ nodes) (notTrivia : node.isTrivia = false)
      (isShorter : middle.length < nodes.length) (taken : Takes rule nodes middle value added)
      (others : Consists rule middle values) : Consists rule nodes (value :: values)

/-- Nothing is left to what is done where the rule does not apply. -/
theorem Consists.throughout {values : List α} (consists : Consists rule nodes values)
    (otherwise : Reader Unit) :
    ∃ parts, throughout rule otherwise nodes = (values, ⟨parts, true⟩) := by
  have repeats : ∀ found : List α, ∃ rest added, IsGap .wide rest ∧
      Repeats (throughoutStep rule otherwise) found nodes rest (values.reverse ++ found) added := by
    induction consists with
    | nil isGap => exact fun found => ⟨_, _, isGap, .stop (takes_throughoutStep_end found isGap)⟩
    | @cons _ _ _ value _ _ member notTrivia isShorter taken _ inductionHypothesis =>
        intro found
        obtain ⟨rest, added, isGap, others⟩ := inductionHypothesis (value :: found)
        have step : Takes (throughoutStep rule otherwise found) _ _ (some (value :: found)) _ :=
          takes_throughoutStep found member notTrivia taken
        rw [List.reverse_cons, List.append_assoc]
        exact ⟨rest, _, isGap, .more isShorter step others⟩
  obtain ⟨rest, added, isGap, steps⟩ := repeats []
  rw [steps.throughout isGap, List.append_nil, List.reverse_reverse]
  exact ⟨_, rfl⟩

end FactoryProxy.Php.Reader
