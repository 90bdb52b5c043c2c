import FactoryProxy.FileSystem.Change
import FactoryProxy.Proofs.OrderedMap.Lookup

/-!
Contract: where paths lead.

Owns: the steps on the way of a path as a relation, its agreement with the function
that follows segments, and what the way says about the entry at its end. Segments
that are empty or a single dot change no way that ends at an entry.

Does not own: the ways after a change, which `FileSystem.Writing` gives.
-/

namespace FactoryProxy

/-- What the place says about the entry under its key is true. -/
def Place.IsTrue (files : FileSystem) : Place → Prop
  | .found key entry => entry = .directory ∨ files.lookup key = some entry
  | .vacant key => key ≠ [] ∧ files.lookup key = none
  | .vacantDirectory key => key ≠ [] ∧ files.lookup key = none

namespace FileSystem

/-! ## Ways -/

/-- The segment is the name of an entry. -/
structure IsName (segment : String) : Prop where
  isLoud : ¬ (segment = "" ∨ segment = ".")
  isBelow : segment ≠ ".."
  isShort : ¬ nameLimit < segment.utf8ByteSize

/-- Segments lead from a directory to a place, with at most so many links on the way. -/
inductive Leads (files : FileSystem) (followLast : Bool) :
    (links : Nat) → FileKey → List String → Place → Prop where
  | finish {links : Nat} {here : FileKey} :
      Leads files followLast links here [] (.found here .directory)
  | silent {links : Nat} {here : FileKey} {segment : String} {rest : List String} {place : Place}
      (isSilent : segment = "" ∨ segment = ".")
      (further : Leads files followLast links here rest place) :
      Leads files followLast links here (segment :: rest) place
  | above {links : Nat} {here : FileKey} {rest : List String} {place : Place}
      (further : Leads files followLast links here.dropLast rest place) :
      Leads files followLast links here (".." :: rest) place
  | vacant {links : Nat} {here : FileKey} {segment : String} (isName : IsName segment)
      (absent : files.lookup (here ++ [segment]) = none) :
      Leads files followLast links here [segment] (.vacant (here ++ [segment]))
  | vacantDirectory {links : Nat} {here : FileKey} {segment : String} {rest : List String}
      (isName : IsName segment) (absent : files.lookup (here ++ [segment]) = none)
      (slashes : rest ≠ []) (empty : rest.all String.isEmpty = true) :
      Leads files followLast links here (segment :: rest) (.vacantDirectory (here ++ [segment]))
  | directory {links : Nat} {here : FileKey} {segment : String} {rest : List String}
      {place : Place} (isName : IsName segment)
      (isThere : files.lookup (here ++ [segment]) = some .directory)
      (further : Leads files followLast links (here ++ [segment]) rest place) :
      Leads files followLast links here (segment :: rest) place
  | file {links : Nat} {here : FileKey} {segment : String} {content : ByteArray}
      (isName : IsName segment)
      (isThere : files.lookup (here ++ [segment]) = some (.file content)) :
      Leads files followLast links here [segment] (.found (here ++ [segment]) (.file content))
  | lastLink {links : Nat} {here : FileKey} {segment target : String} (isName : IsName segment)
      (isThere : files.lookup (here ++ [segment]) = some (.link target))
      (stays : followLast = false) :
      Leads files followLast links here [segment] (.found (here ++ [segment]) (.link target))
  | link {links : Nat} {here : FileKey} {segment target : String} {rest : List String}
      {place : Place} (isName : IsName segment)
      (isThere : files.lookup (here ++ [segment]) = some (.link target))
      (goesOn : ¬ (rest.isEmpty && !followLast) = true)
      (further : Leads files followLast links (startOf target here) (segmentsOf target ++ rest)
        place) :
      Leads files followLast (links + 1) here (segment :: rest) place

variable {files : FileSystem} {followLast : Bool} {links : Nat} {here key : FileKey}
  {segments : List String} {place : Place}

/-- Where segments are followed to, they lead. -/
theorem leads_of_follow (followed : files.follow followLast links here segments = .ok place) :
    Leads files followLast links here segments place := by
  fun_induction files.follow followLast links here segments with
  | case1 links here =>
      obtain rfl := Except.ok.inj followed
      exact .finish
  | case2 links here segment rest isSilent inductionHypothesis =>
      exact .silent isSilent (inductionHypothesis followed)
  | case3 links here rest isLoud inductionHypothesis => exact .above (inductionHypothesis followed)
  | case4 links here segment rest isLoud isBelow tooLong => cases followed
  | case5 links here segment rest isLoud isBelow isShort key absent isLast =>
      obtain rfl := Except.ok.inj followed
      rw [List.isEmpty_iff.mp isLast]
      exact .vacant ⟨isLoud, isBelow, isShort⟩ absent
  | case6 links here segment rest isLoud isBelow isShort key absent slashes empty =>
      obtain rfl := Except.ok.inj followed
      exact .vacantDirectory ⟨isLoud, isBelow, isShort⟩ absent
        (fun isLast => slashes (List.isEmpty_iff.mpr isLast)) empty
  | case7 links here segment rest isLoud isBelow isShort key absent slashes names =>
      cases followed
  | case8 links here segment rest isLoud isBelow isShort key isThere inductionHypothesis =>
      exact .directory ⟨isLoud, isBelow, isShort⟩ isThere (inductionHypothesis followed)
  | case9 links here segment rest isLoud isBelow isShort key content isThere isLast =>
      obtain rfl := Except.ok.inj followed
      rw [List.isEmpty_iff.mp isLast]
      exact .file ⟨isLoud, isBelow, isShort⟩ isThere
  | case10 links here segment rest isLoud isBelow isShort key content isThere slashes =>
      cases followed
  | case11 links here segment rest isLoud isBelow isShort key target isThere stays =>
      obtain rfl := Except.ok.inj followed
      rw [Bool.and_eq_true, Bool.not_eq_true', List.isEmpty_iff] at stays
      rw [stays.1]
      exact .lastLink ⟨isLoud, isBelow, isShort⟩ isThere stays.2
  | case12 here segment rest isLoud isBelow isShort key target isThere goesOn => cases followed
  | case13 here segment rest isLoud isBelow isShort key target isThere goesOn links bounded
      inductionHypothesis =>
      exact .link ⟨isLoud, isBelow, isShort⟩ isThere goesOn (inductionHypothesis followed)

/-- The step at the name of an entry. -/
theorem follow_name (files : FileSystem) (followLast : Bool) (links : Nat) (here : FileKey)
    {segment : String} (isName : IsName segment) (rest : List String) :
    files.follow followLast links here (segment :: rest) =
      match files.lookup (here ++ [segment]) with
      | none =>
        if rest.isEmpty then .ok (.vacant (here ++ [segment]))
        else if rest.all String.isEmpty then .ok (.vacantDirectory (here ++ [segment]))
        else .error .notFound
      | some .directory => files.follow followLast links (here ++ [segment]) rest
      | some (.file content) =>
        if rest.isEmpty then .ok (.found (here ++ [segment]) (.file content))
        else .error .notADirectory
      | some (.link target) =>
        if rest.isEmpty && !followLast then .ok (.found (here ++ [segment]) (.link target))
        else
          match links with
          | 0 => .error .tooManyLinks
          | links + 1 =>
            files.follow followLast links (startOf target here) (segmentsOf target ++ rest) := by
  rw [follow, if_neg isName.isLoud, if_neg isName.isBelow, if_neg isName.isShort]
  dsimp only
  split
  case h_4 target isThere =>
    cases links with
    | zero => simp only [isThere]
    | succ links => simp only [isThere]
  all_goals
    rename_i isThere
    rw [isThere]

/-- Segments are followed to where they lead. -/
theorem follow_of_leads (leads : Leads files followLast links here segments place) :
    files.follow followLast links here segments = .ok place := by
  induction leads with
  | finish => rw [follow]
  | silent isSilent _ inductionHypothesis =>
      rw [follow, if_pos isSilent]
      exact inductionHypothesis
  | above _ inductionHypothesis =>
      rw [follow, if_neg (by decide), if_pos rfl]
      exact inductionHypothesis
  | vacant isName absent =>
      rw [follow_name _ _ _ _ isName, absent]
      rfl
  | vacantDirectory isName absent slashes empty =>
      rw [follow_name _ _ _ _ isName, absent]
      dsimp only
      rw [if_neg (fun isLast => slashes (List.isEmpty_iff.mp isLast)), if_pos empty]
  | directory isName isThere _ inductionHypothesis =>
      rw [follow_name _ _ _ _ isName, isThere]
      exact inductionHypothesis
  | file isName isThere =>
      rw [follow_name _ _ _ _ isName, isThere]
      rfl
  | lastLink isName isThere stays =>
      rw [follow_name _ _ _ _ isName, isThere, stays]
      rfl
  | link isName isThere goesOn _ inductionHypothesis =>
      rw [follow_name _ _ _ _ isName, isThere]
      dsimp only
      rw [if_neg goesOn]
      exact inductionHypothesis

theorem follow_eq_ok_iff : files.follow followLast links here segments = .ok place ↔
    Leads files followLast links here segments place :=
  ⟨leads_of_follow, follow_of_leads⟩

/-! ## What stands at the end of a way -/

theorem isTrue_of_leads (leads : Leads files followLast links here segments place) :
    place.IsTrue files := by
  induction leads with
  | finish => exact .inl rfl
  | silent _ _ inductionHypothesis => exact inductionHypothesis
  | above _ inductionHypothesis => exact inductionHypothesis
  | vacant _ absent => exact ⟨List.append_ne_nil_of_right_ne_nil _ (List.cons_ne_nil _ _), absent⟩
  | vacantDirectory _ absent =>
      exact ⟨List.append_ne_nil_of_right_ne_nil _ (List.cons_ne_nil _ _), absent⟩
  | directory _ _ _ inductionHypothesis => exact inductionHypothesis
  | file _ isThere => exact .inr isThere
  | lastLink _ isThere _ => exact .inr isThere
  | link _ _ _ _ inductionHypothesis => exact inductionHypothesis

/-! ## Silent segments -/

/-- The right list is the left one without some of its silent segments. -/
inductive Quieter : List String → List String → Prop where
  | nil : Quieter [] []
  | keep {left right : List String} (segment : String) (quieter : Quieter left right) :
      Quieter (segment :: left) (segment :: right)
  | drop {left right : List String} {segment : String} (isSilent : segment = "" ∨ segment = ".")
      (quieter : Quieter left right) : Quieter (segment :: left) right

theorem Quieter.append (common : List String) {left right : List String}
    (quieter : Quieter left right) : Quieter (common ++ left) (common ++ right) := by
  induction common with
  | nil => exact quieter
  | cons head tail inductionHypothesis => exact .keep head inductionHypothesis

theorem Quieter.eq_nil {right : List String} (quieter : Quieter [] right) : right = [] := by
  cases quieter
  rfl

/-- Segments with a name in front are still behind that name when quieter. -/
theorem Quieter.exists_rest {segment : String} {left right : List String}
    (isLoud : ¬ (segment = "" ∨ segment = ".")) (quieter : Quieter (segment :: left) right) :
    ∃ rest, right = segment :: rest ∧ Quieter left rest := by
  cases quieter with
  | keep _ quieter => exact ⟨_, rfl, quieter⟩
  | drop isSilent _ => exact absurd isSilent isLoud

/-- A way to an entry is the same without silent segments. -/
theorem leads_of_quieter {entry : FileEntry} {quiet : List String}
    (leads : Leads files true links here segments (.found key entry))
    (quieter : Quieter segments quiet) :
    Leads files true links here quiet (.found key entry) := by
  generalize isPlace : Place.found key entry = place at leads
  induction leads generalizing quiet with
  | finish =>
      rw [quieter.eq_nil]
      exact .finish
  | silent isSilent _ inductionHypothesis =>
      cases quieter with
      | keep _ quieter => exact .silent isSilent (inductionHypothesis quieter isPlace)
      | drop _ quieter => exact inductionHypothesis quieter isPlace
  | above _ inductionHypothesis =>
      obtain ⟨rest, rfl, quieterRest⟩ := quieter.exists_rest (by decide)
      exact .above (inductionHypothesis quieterRest isPlace)
  | vacant => cases isPlace
  | vacantDirectory => cases isPlace
  | directory isName isThere _ inductionHypothesis =>
      obtain ⟨rest, rfl, quieterRest⟩ := quieter.exists_rest isName.isLoud
      exact .directory isName isThere (inductionHypothesis quieterRest isPlace)
  | file isName isThere =>
      obtain ⟨rest, rfl, quieterRest⟩ := quieter.exists_rest isName.isLoud
      rw [quieterRest.eq_nil]
      exact .file isName isThere
  | lastLink _ _ stays => cases stays
  | link isName isThere goesOn _ inductionHypothesis =>
      -- A link without a slash behind it is followed all the same.
      obtain ⟨rest, rfl, quieterRest⟩ := quieter.exists_rest isName.isLoud
      exact .link isName isThere (by simp) (inductionHypothesis (quieterRest.append _) isPlace)

end FileSystem

end FactoryProxy
