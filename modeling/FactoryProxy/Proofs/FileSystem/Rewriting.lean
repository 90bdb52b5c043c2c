import FactoryProxy.Proofs.FileSystem.Writing
import FactoryProxy.Proofs.OrderedMap.Spelling
import FactoryProxy.Proofs.Sequencing

/-!
Contract: files that are written again over what was written.

Several paths may lead to one file, so a written file is overwritten before the last of
the writes. Where all paths lead to what the writes have left, the same writes leave the
files as they are.

Owns: writes in a row, the keys behind them, and writes over their own results.
-/

namespace FactoryProxy.FileSystem

open Sequencing

variable {files middle after later : FileSystem} {path : Path} {key : FileKey}
  {content : ByteArray} {written : List (Path × ByteArray)} {puts : List (FileKey × ByteArray)}

/-! ## Files under keys -/

/-- Files are put under keys one after another. -/
def putAll (files : FileSystem) (puts : List (FileKey × ByteArray)) : FileSystem :=
  puts.foldl (fun files put => files.put put.1 (.file put.2)) files

/-- The content that is put under a key last. -/
def lastPut? (key : FileKey) : List (FileKey × ByteArray) → Option ByteArray
  | [] => none
  | put :: rest => (lastPut? key rest).or (if key = put.1 then some put.2 else none)

theorem mem_of_lastPut? (isLast : lastPut? key puts = some content) : (key, content) ∈ puts := by
  induction puts with
  | nil => cases isLast
  | cons put rest inductionHypothesis =>
      rw [lastPut?, Option.or_eq_some_iff] at isLast
      rcases isLast with inRest | ⟨_, isHead⟩
      · exact List.mem_cons_of_mem put (inductionHypothesis inRest)
      · split at isHead
        · rename_i isKey
          rw [isKey, ← Option.some.inj isHead]
          exact List.mem_cons_self
        · cases isHead

theorem get?_put (files : FileSystem) (key other : FileKey) (entry : FileEntry) :
    (files.put key entry).entries.get? other =
      if other = key then some entry else files.entries.get? other :=
  OrderedMap.get?_insert files.entries key other entry

theorem get?_putAll (files : FileSystem) (puts : List (FileKey × ByteArray)) (key : FileKey) :
    (files.putAll puts).entries.get? key =
      ((lastPut? key puts).map FileEntry.file).or (files.entries.get? key) := by
  induction puts generalizing files with
  | nil => rfl
  | cons put rest inductionHypothesis =>
      show ((files.put put.1 (.file put.2)).putAll rest).entries.get? key = _
      rw [inductionHypothesis, get?_put, lastPut?]
      cases lastPut? key rest with
      | some last => rfl
      | none =>
          by_cases isKey : key = put.1
          · rw [if_pos isKey, if_pos isKey]
            rfl
          · rw [if_neg isKey, if_neg isKey]
            rfl

theorem current_putAll (files : FileSystem) (puts : List (FileKey × ByteArray)) :
    (files.putAll puts).current = files.current := by
  induction puts generalizing files with
  | nil => rfl
  | cons put rest inductionHypothesis =>
      exact inductionHypothesis (files.put put.1 (.file put.2))

/-- File systems are equal if they have the same entries and the same current directory. -/
theorem eq_of_get? {left right : FileSystem} (sameCurrent : left.current = right.current)
    (sameEntries : ∀ key, left.entries.get? key = right.entries.get? key) : left = right := by
  obtain ⟨leftEntries, leftCurrent⟩ := left
  obtain ⟨rightEntries, rightCurrent⟩ := right
  obtain rfl : leftCurrent = rightCurrent := sameCurrent
  rw [show leftEntries = rightEntries from OrderedMap.eq_of_get? sameEntries]

theorem get?_of_entryAt (found : files.entryAt path = .ok (key, .file content)) :
    files.entries.get? key = some (.file content) := by
  have isThere := lookup_of_entryAt found
  cases key with
  | nil => cases isThere
  | cons head tail => exact isThere

/-- A file that is put where a file is leaves everything as it is exactly if it has the same
content. -/
theorem put_eq_self_iff {other : ByteArray}
    (found : files.entryAt path = .ok (key, .file content)) :
    files.put key (.file other) = files ↔ other = content := by
  have isThere := get?_of_entryAt found
  constructor
  · intro same
    have isPut := get?_put files key key (.file other)
    rw [same, if_pos rfl, isThere] at isPut
    exact (FileEntry.file.inj (Option.some.inj isPut)).symm
  · rintro rfl
    refine eq_of_get? rfl (fun otherKey => ?_)
    rw [get?_put]
    by_cases isKey : otherKey = key
    · rw [if_pos isKey, isKey, isThere]
    · rw [if_neg isKey]

/-! ## Writes in a row -/

/-- Files are written one after another. -/
inductive WritesAll : List (Path × ByteArray) → FileSystem → FileSystem → Prop where
  | nil {files : FileSystem} : WritesAll [] files files
  | cons {path : Path} {content : ByteArray} {rest : List (Path × ByteArray)}
      {files middle after : FileSystem} (wrote : write path content files = (.ok (), middle))
      (further : WritesAll rest middle after) : WritesAll ((path, content) :: rest) files after

/-- Paths that led to files lead to the same keys after writes. -/
theorem WritesAll.entryAt (wrote : WritesAll written files after)
    (found : files.entryAt path = .ok (key, .file content)) :
    ∃ left, after.entryAt path = .ok (key, .file left) := by
  induction wrote generalizing content with
  | nil => exact ⟨content, found⟩
  | cons wroteHead _ inductionHypothesis =>
      obtain ⟨_, _, keeps⟩ := entryAt_write wroteHead
      exact inductionHypothesis (keeps _ _ _ found)

/-- The path of a write leads to the key that its content is put under. -/
structure PutUnder (files : FileSystem) (written : Path × ByteArray)
    (put : FileKey × ByteArray) : Prop where
  content : put.2 = written.2
  namesFile : endsInSlash written.1 = false
  leads : ∃ left, files.entryAt written.1 = .ok (put.1, .file left)

theorem endsInSlash_of_writingKey (isKey : files.writingKey path = .ok key) :
    endsInSlash path = false := by
  unfold writingKey at isKey
  split at isKey
  · split at isKey
    · cases isKey
    · cases isKey
  · rename_i namesFile
    exact Bool.eq_false_iff.mpr namesFile

theorem writingKey_of_file (namesFile : endsInSlash path = false)
    (found : files.entryAt path = .ok (key, .file content)) : files.writingKey path = .ok key := by
  unfold writingKey
  rw [namesFile, entryAt_eq_ok_iff.mp found]
  rfl

theorem write_of_writingKey (isKey : files.writingKey path = .ok key) (content : ByteArray) :
    write path content files = (.ok (), files.put key (.file content)) := by
  unfold write
  rw [isKey]

/-- Writes put their contents under the keys that their paths lead to afterwards. -/
theorem WritesAll.exists_puts (wrote : WritesAll written files after) :
    ∃ puts, List.Forall₂ (PutUnder after) written puts ∧ after = files.putAll puts := by
  induction wrote with
  | nil => exact ⟨[], .nil, rfl⟩
  | @cons path content rest files middle after wroteHead further inductionHypothesis =>
      obtain ⟨puts, putsRest, rfl⟩ := inductionHypothesis
      obtain ⟨key, isKey, rfl⟩ := write_eq_ok wroteHead
      refine ⟨(key, content) :: puts, .cons ⟨rfl, endsInSlash_of_writingKey isKey, ?_⟩ putsRest,
        rfl⟩
      exact further.entryAt (entryAt_put_written isKey content)

/-- Where the paths lead to files, writes put their contents under the keys of these. -/
theorem writesAll_of_files (leads : List.Forall₂ (PutUnder files) written puts) :
    WritesAll written files (files.putAll puts) := by
  induction written generalizing files puts with
  | nil =>
      cases leads
      exact .nil
  | cons head rest inductionHypothesis =>
      obtain ⟨put, puts, isHead, isRest, rfl⟩ := List.forall₂_cons_left_iff.mp leads
      obtain ⟨path, content⟩ := head
      obtain ⟨key, putContent⟩ := put
      obtain ⟨sameContent, namesFile, left, found⟩ := isHead
      obtain rfl : putContent = content := sameContent
      have isKey := writingKey_of_file namesFile found
      refine .cons (write_of_writingKey isKey putContent) (inductionHypothesis ?_)
      refine isRest.imp (fun other otherPut under => ⟨under.content, under.namesFile, ?_⟩)
      obtain ⟨otherLeft, otherFound⟩ := under.leads
      exact ⟨_, entryAt_put_file (isWritable_of_writingKey isKey) putContent otherFound⟩

/-! ## Writing again -/

/-- The path leads to the same entry in both file systems, or to none in both. -/
def LeadsAlike (files later : FileSystem) (path : Path) : Prop :=
  ∀ key entry, files.entryAt path = .ok (key, entry) ↔ later.entryAt path = .ok (key, entry)

theorem leadsAlike_put_free (notRoot : key ≠ []) (free : files.lookup key = none)
    (content : ByteArray) (isFile : files.isFile path = true) :
    LeadsAlike files (files.put key (.file content)) path := by
  obtain ⟨fileKey, old, found⟩ := isFile_iff_entryAt.mp isFile
  have stays := entryAt_put_free notRoot free (.file content) found
  intro otherKey entry
  rw [found, stays]

/-- Writes over their own results change nothing. -/
theorem WritesAll.over (wrote : WritesAll written files after) : WritesAll written after after := by
  obtain ⟨puts, putsAfter, isAfter⟩ := wrote.exists_puts
  have rewrites := writesAll_of_files putsAfter
  have same : after.putAll puts = after := by
    refine eq_of_get? (current_putAll after puts) (fun key => ?_)
    rw [get?_putAll, isAfter, get?_putAll, ← Option.or_assoc, Option.or_self]
  rw [same] at rewrites
  exact rewrites

/-- Writes over their own results change nothing but the content that is written last, if
that is another one. -/
theorem WritesAll.again (wrote : WritesAll written files middle)
    (wroteLast : write path content middle = (.ok (), after))
    (alike : ∀ former ∈ written, LeadsAlike after later former.1)
    (alikeLast : LeadsAlike after later path) :
    ∃ key rewritten, after.entryAt path = .ok (key, .file content) ∧
      WritesAll written later rewritten ∧
      ∀ other, write path other rewritten = (.ok (), later.put key (.file other)) := by
  obtain ⟨puts, putsMiddle, rfl⟩ := wrote.exists_puts
  obtain ⟨key, isKey, rfl⟩ := write_eq_ok wroteLast
  have writable := isWritable_of_writingKey isKey
  have found := entryAt_put_written isKey content
  have putsLater : List.Forall₂ (PutUnder later) written puts := by
    refine forall₂_of_mem putsMiddle (fun former member put _ under =>
      ⟨under.content, under.namesFile, ?_⟩)
    obtain ⟨left, leads⟩ := under.leads
    exact ⟨_, (alike former member _ _).mp (entryAt_put_file writable content leads)⟩
  have rewrites := writesAll_of_files putsLater
  refine ⟨key, later.putAll puts, found, rewrites, ?_⟩
  intro other
  obtain ⟨left, staysFile⟩ := rewrites.entryAt ((alikeLast _ _).mp found)
  rw [write_of_writingKey (writingKey_of_file (endsInSlash_of_writingKey isKey) staysFile) other]
  refine Prod.ext rfl (eq_of_get? (current_putAll later puts) ?_)
  intro otherKey
  rw [get?_put, get?_put, get?_putAll]
  by_cases isLast : otherKey = key
  · rw [if_pos isLast, if_pos isLast]
  · rw [if_neg isLast, if_neg isLast]
    cases isPut : lastPut? otherKey puts with
    | none => rfl
    | some last =>
        -- What was put under this key last is still there, since a path leads to it.
        obtain ⟨former, member, under⟩ := exists_left putsMiddle (mem_of_lastPut? isPut)
        obtain ⟨left, leads⟩ := under.leads
        have isThere := entryAt_put_file writable content leads
        have remains := get?_of_entryAt ((alike former member _ _).mp isThere)
        have wasLast := get?_of_entryAt isThere
        rw [get?_put, if_neg isLast, get?_putAll, isPut] at wasLast
        rw [remains, ← wasLast]
        rfl

end FactoryProxy.FileSystem
