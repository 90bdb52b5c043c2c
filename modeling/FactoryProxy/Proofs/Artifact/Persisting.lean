import FactoryProxy.Artifact.Registry
import FactoryProxy.Proofs.FileSystem.Writing
import FactoryProxy.Proofs.Sequencing

/-!
Contract: the files after artifacts have been written.

Artifacts are written in order, and two of them may be written to one file, of which
the later one stays.

Owns: the records of written artifacts, and what paths lead to afterwards.
-/

namespace FactoryProxy.Artifact

open FileSystem
open Sequencing

variable {directory : Path} {artifact : Artifact} {artifacts : List Artifact}
  {files after : FileSystem} {persisted : List PersistedArtifact}

/-- The record of an artifact in a directory. -/
def recordIn (directory : Path) (artifact : Artifact) : PersistedArtifact :=
  ⟨artifact.name, artifact.qualified, artifact.className, pathIn directory artifact.name⟩

theorem persist_eq_ok {recorded : PersistedArtifact}
    (ran : persist directory artifact files = (.ok recorded, after)) :
    FileSystem.write (pathIn directory artifact.name) artifact.source.toUTF8 files =
        (.ok (), after) ∧
      recorded = recordIn directory artifact := by
  unfold persist at ran
  obtain ⟨_, middle, wrote, finished⟩ := run_bind_eq_ok.mp (run_restate_eq_ok.mp ran)
  cases finished
  exact ⟨wrote, rfl⟩

/-- Written artifacts are recorded in order. -/
theorem persisted_eq (ran : persistAll directory artifacts files = (.ok persisted, after)) :
    persisted = artifacts.map (recordIn directory) := by
  unfold persistAll at ran
  induction artifacts generalizing files persisted with
  | nil =>
      cases ran
      rfl
  | cons head tail inductionHypothesis =>
      rw [List.mapM_cons] at ran
      obtain ⟨recorded, middle, persists, furtherRun⟩ := run_bind_eq_ok.mp ran
      obtain ⟨others, last, persistsTail, finished⟩ := run_bind_eq_ok.mp furtherRun
      cases finished
      rw [inductionHypothesis persistsTail, (persist_eq_ok persists).2]
      rfl

/-- The first artifact is written, and the others after it. -/
theorem persistAll_cons {head : Artifact} {tail : List Artifact}
    (ran : persistAll directory (head :: tail) files = (.ok persisted, after)) :
    ∃ middle others,
      FileSystem.write (pathIn directory head.name) head.source.toUTF8 files =
        (.ok (), middle) ∧
      persistAll directory tail middle = (.ok others, after) := by
  unfold persistAll at ran ⊢
  rw [List.mapM_cons] at ran
  obtain ⟨recorded, middle, persists, furtherRun⟩ := run_bind_eq_ok.mp ran
  obtain ⟨others, last, persistsTail, finished⟩ := run_bind_eq_ok.mp furtherRun
  cases finished
  exact ⟨middle, others, (persist_eq_ok persists).1, persistsTail⟩

/-- Every path that led to a file leads to the same key. Its content is as before or
that of an artifact whose path leads to that key. -/
theorem entryAt_persistAll
    (ran : persistAll directory artifacts files = (.ok persisted, after)) {path : Path}
    {key : FileKey} {content : ByteArray}
    (found : files.entryAt path = .ok (key, .file content)) :
    ∃ left, after.entryAt path = .ok (key, .file left) ∧
      (left = content ∨ ∃ writer ∈ artifacts, ∃ written,
        after.entryAt (pathIn directory writer.name) = .ok (key, .file written) ∧
          left = writer.source.toUTF8) := by
  induction artifacts generalizing files persisted path key content with
  | nil =>
      unfold persistAll at ran
      cases ran
      exact ⟨content, found, .inl rfl⟩
  | cons head tail inductionHypothesis =>
      obtain ⟨middle, others, wrote, persistsTail⟩ := persistAll_cons ran
      obtain ⟨headKey, isHead, keeps⟩ := entryAt_write wrote
      obtain ⟨left, isLeft, origin⟩ := inductionHypothesis persistsTail (keeps _ _ _ found)
      -- The first artifact is the writer only if no later one wrote to its file.
      obtain ⟨written, isWritten, _⟩ := inductionHypothesis persistsTail isHead
      refine ⟨left, isLeft, ?_⟩
      rcases origin with isMiddle | ⟨writer, member, later⟩
      · by_cases same : key = headKey
        · rw [if_pos same] at isMiddle
          rw [same]
          exact .inr ⟨head, List.mem_cons_self, written, isWritten, isMiddle⟩
        · rw [if_neg same] at isMiddle
          exact .inl isMiddle
      · exact .inr ⟨writer, List.mem_cons_of_mem head member, later⟩

/-- The path of every written artifact leads to a file with the source of an artifact
whose path leads there. -/
theorem entryAt_artifact
    (ran : persistAll directory artifacts files = (.ok persisted, after))
    (member : artifact ∈ artifacts) :
    ∃ key, ∃ writer ∈ artifacts,
      after.entryAt (pathIn directory artifact.name) = .ok (key, .file writer.source.toUTF8) ∧
      after.entryAt (pathIn directory writer.name) = .ok (key, .file writer.source.toUTF8) := by
  induction artifacts generalizing files persisted with
  | nil => cases member
  | cons head tail inductionHypothesis =>
      obtain ⟨middle, others, wrote, persistsTail⟩ := persistAll_cons ran
      rcases List.mem_cons.mp member with isHead | inTail
      · obtain ⟨key, isThere, _⟩ := entryAt_write wrote
        obtain ⟨left, isLeft, origin⟩ := entryAt_persistAll persistsTail isThere
        rw [isHead]
        rcases origin with rfl | ⟨writer, isWriter, written, isWritten, rfl⟩
        · exact ⟨key, head, List.mem_cons_self, isLeft, isLeft⟩
        · have sameEntry := (lookup_of_entryAt isLeft).symm.trans (lookup_of_entryAt isWritten)
          rw [← FileEntry.file.inj (Option.some.inj sameEntry)] at isWritten
          exact ⟨key, writer, List.mem_cons_of_mem head isWriter, isLeft, isWritten⟩
      · obtain ⟨key, writer, isWriter, isArtifact, isThere⟩ :=
          inductionHypothesis persistsTail inTail
        exact ⟨key, writer, List.mem_cons_of_mem head isWriter, isArtifact, isThere⟩

/-- Artifacts of which no two are related are related only to themselves. -/
theorem eq_of_apart (relation : Artifact → Artifact → Prop)
    (symmetric : ∀ left right, relation left right → relation right left)
    (apart : artifacts.Pairwise (fun left right => ¬ relation left right))
    {left right : Artifact} (leftMember : left ∈ artifacts) (rightMember : right ∈ artifacts)
    (related : relation left right) : left = right := by
  have onlySelf : artifacts.Pairwise (fun left right => relation left right → left = right) :=
    apart.imp (fun unrelated isRelated => absurd isRelated unrelated)
  have onlySelfFlipped : artifacts.Pairwise
      (flip (fun left right => relation left right → left = right)) :=
    apart.imp (fun unrelated isRelated => absurd (symmetric _ _ isRelated) unrelated)
  exact onlySelf.forall_of_forall_of_flip (fun _ _ _ => rfl) onlySelfFlipped leftMember
    rightMember related

/-- Where no two paths lead to one file, every path leads to the source of its
artifact. -/
theorem readText_artifact
    (ran : persistAll directory artifacts files = (.ok persisted, after))
    (apart : artifacts.Pairwise (fun left right =>
      ¬ after.SameFile (pathIn directory left.name) (pathIn directory right.name)))
    (member : artifact ∈ artifacts) :
    after.readText (pathIn directory artifact.name) = .ok artifact.source := by
  obtain ⟨key, writer, isWriter, isArtifact, isThere⟩ := entryAt_artifact ran member
  have together : after.SameFile (pathIn directory artifact.name) (pathIn directory writer.name) :=
    ⟨key, _, isArtifact, isThere⟩
  have same : artifact = writer :=
    eq_of_apart (fun left right =>
      after.SameFile (pathIn directory left.name) (pathIn directory right.name))
      (fun _ _ => SameFile.symm) apart member isWriter together
  rw [← same] at isArtifact
  exact readText_of_read (read_eq_ok_iff.mpr ⟨key, isArtifact⟩)

end FactoryProxy.Artifact
