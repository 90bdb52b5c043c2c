import FactoryProxy.Reflection.DefaultValue

/-!
Contract: a text with some ranges replaced.

Owns: replacements with their places, their splice into a text, and the replacements that
a list of segments stands for.
-/

namespace FactoryProxy.Reflection

/-- A range of a text, by its first character and its content, and what replaces it. -/
structure Edit where
  start : Nat
  written : String
  replacement : String
deriving DecidableEq, Repr

namespace Edit

/-- The position behind the range. -/
def stop (edit : Edit) : Nat :=
  edit.start + edit.written.length

/-- A text that starts at the position, with the ranges replaced and everything outside of
them copied. -/
def splice (position : Nat) (text : List Char) : List Edit → List Char
  | [] => text
  | edit :: rest =>
    text.take (edit.start - position) ++ edit.replacement.toList ++
      splice edit.stop (text.drop (edit.stop - position)) rest

/-- The replacements among segments, the first of which starts at the position. -/
def ofSegments (position : Nat) : List Segment → List Edit
  | [] => []
  | .kept text :: rest => ofSegments (position + text.length) rest
  | .replaced written replacement :: rest =>
    ⟨position, written, replacement⟩ :: ofSegments (position + written.length) rest

variable {position : Nat} {segments : List Segment} {edit : Edit}

theorem start_of_mem (member : edit ∈ ofSegments position segments) : position ≤ edit.start := by
  induction segments generalizing position with
  | nil => cases member
  | cons segment rest inductionHypothesis =>
      cases segment with
      | kept text =>
          have further := inductionHypothesis member
          omega
      | replaced written replacement =>
          rcases List.mem_cons.mp member with isFirst | inRest
          · exact Nat.le_of_eq (congrArg Edit.start isFirst).symm
          · have further := inductionHypothesis inRest
            omega

/-- The ranges lie in order and do not overlap. -/
theorem apart_ofSegments (position : Nat) (segments : List Segment) :
    (ofSegments position segments).Pairwise (fun earlier later =>
      earlier.stop ≤ later.start) := by
  induction segments generalizing position with
  | nil => exact .nil
  | cons segment rest inductionHypothesis =>
      cases segment with
      | kept text => exact inductionHypothesis (position + text.length)
      | replaced written replacement =>
          refine .cons ?_ (inductionHypothesis (position + written.length))
          intro later member
          exact start_of_mem member

/-- A stretch in front of all ranges is copied. -/
theorem splice_append (stretch text : List Char) {edits : List Edit}
    (behind : ∀ edit ∈ edits, position + stretch.length ≤ edit.start) :
    splice position (stretch ++ text) edits =
      stretch ++ splice (position + stretch.length) text edits := by
  cases edits with
  | nil => rfl
  | cons edit rest =>
      have starts := behind edit List.mem_cons_self
      have ends : edit.start ≤ edit.stop := Nat.le_add_right _ _
      have taken : (stretch ++ text).take (edit.start - position) =
          stretch ++ text.take (edit.start - (position + stretch.length)) := by
        rw [List.take_append, List.take_of_length_le (by omega), Nat.sub_sub]
      have dropped : (stretch ++ text).drop (edit.stop - position) =
          text.drop (edit.stop - (position + stretch.length)) := by
        rw [List.drop_append, List.drop_of_length_le (by omega), List.nil_append, Nat.sub_sub]
      unfold splice
      rw [taken, dropped]
      simp only [List.append_assoc]

/-- Splicing the replacements of segments into their text gives the text after them. -/
theorem splice_ofSegments (position : Nat) (segments : List Segment) :
    splice position (Text.concat (segments.map Segment.before)).toList
        (ofSegments position segments) =
      (Text.concat (segments.map Segment.after)).toList := by
  induction segments generalizing position with
  | nil => rfl
  | cons segment rest inductionHypothesis =>
      rw [List.map_cons, List.map_cons, Text.concat_cons, Text.concat_cons, String.toList_append,
        String.toList_append]
      cases segment with
      | kept text =>
          have behind : ∀ edit ∈ ofSegments (position + text.length) rest,
              position + text.toList.length ≤ edit.start := by
            intro edit member
            exact start_of_mem member
          exact (splice_append _ _ behind).trans
            (congrArg _ (inductionHypothesis (position + text.length)))
      | replaced written replacement =>
          unfold ofSegments splice stop
          dsimp only [Segment.before, Segment.after]
          rw [Nat.sub_self, List.take_zero, List.nil_append, Nat.add_sub_cancel_left,
            ← String.length_toList, List.drop_left, inductionHypothesis]

theorem ofSegments_append (position : Nat) (segments further : List Segment) :
    ofSegments position (segments ++ further) =
      ofSegments position segments ++
        ofSegments (position + (Text.concat (segments.map Segment.before)).length) further := by
  induction segments generalizing position with
  | nil => rfl
  | cons segment rest inductionHypothesis =>
      rw [List.map_cons, Text.concat_cons, String.length_append, ← Nat.add_assoc]
      cases segment with
      | kept text => exact inductionHypothesis (position + text.length)
      | replaced written replacement =>
          exact congrArg _ (inductionHypothesis (position + written.length))

/-- A stretch at the end is not replaced. -/
theorem ofSegments_kept (position : Nat) (segments : List Segment) (text : String) :
    ofSegments position (segments ++ [.kept text]) = ofSegments position segments := by
  rw [ofSegments_append]
  exact List.append_nil _

end Edit

end FactoryProxy.Reflection
