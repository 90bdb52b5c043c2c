import FactoryProxy.Proofs.FileSystem.Following

/-!
Contract: what reading gives after a file has been written.

A written file is put under the key that its path leads to. Every path that led to a
file still leads to the same key, and to the written content if that key is the
written one.

Owns: paths that lead to one file, and the entries after a write.
-/

namespace FactoryProxy

/-- The place after a file has been put under a key. -/
def Place.withFile (key : FileKey) (content : ByteArray) : Place → Place
  | .found other (.file old) => .found other (.file (if other = key then content else old))
  | .vacant other => if other = key then .found key (.file content) else .vacant other
  | place => place

namespace FileSystem

variable {files after : FileSystem} {path left right : Path} {key : FileKey}
  {content : ByteArray}

/-! ## Reading -/

/-- The text of the path can be followed. -/
structure IsUsable (path : Path) : Prop where
  isText : ¬ path.text.toList.contains '\x00' = true
  isNonempty : ¬ path.text.isEmpty = true
  isShort : ¬ pathLimit < path.text.utf8ByteSize

theorem locate_eq_ok_iff {followLast : Bool} {place : Place} :
    files.locate followLast path = .ok place ↔
      IsUsable path ∧
        Leads files followLast linkLimit (startOf path.text files.current)
          (segmentsOf path.text) place := by
  rw [← follow_eq_ok_iff]
  unfold locate
  constructor
  · intro located
    split at located
    · cases located
    · rename_i isText
      split at located
      · cases located
      · rename_i isNonempty
        split at located
        · cases located
        · rename_i isShort
          exact ⟨⟨isText, isNonempty, isShort⟩, located⟩
  · rintro ⟨usable, followed⟩
    rw [if_neg usable.isText, if_neg usable.isNonempty, if_neg usable.isShort]
    exact followed

theorem entryAt_eq_ok_iff {entry : FileEntry} :
    files.entryAt path = .ok (key, entry) ↔ files.locate true path = .ok (.found key entry) := by
  unfold entryAt
  split
  · rename_i located
    rw [located]
    simp
  · rename_i located
    rw [located]
    simp
  · rename_i located
    rw [located]
    simp
  · rename_i located
    rw [located]
    simp

/-- A file at the end of a path is the entry under its key. -/
theorem lookup_of_entryAt (found : files.entryAt path = .ok (key, .file content)) :
    files.lookup key = some (.file content) := by
  have leads := (locate_eq_ok_iff.mp (entryAt_eq_ok_iff.mp found)).2
  rcases isTrue_of_leads leads with isDirectory | isThere
  · cases isDirectory
  · exact isThere

theorem read_eq_ok_iff :
    files.read path = .ok content ↔ ∃ key, files.entryAt path = .ok (key, .file content) := by
  unfold read
  rcases files.entryAt path with failure | ⟨key, entry⟩
  · simp
  · cases entry with
    | file old => simp
    | directory => simp
    | link target => simp

theorem isFile_iff :
    files.isFile path = true ↔ ∃ content, files.read path = .ok content := by
  unfold isFile read
  rcases files.entryAt path with failure | ⟨key, entry⟩
  · simp
  · cases entry with
    | file old => simp
    | directory => simp
    | link target => simp

theorem isFile_iff_entryAt :
    files.isFile path = true ↔ ∃ key content, files.entryAt path = .ok (key, .file content) := by
  rw [isFile_iff, exists_comm]
  exact exists_congr (fun content => read_eq_ok_iff)

theorem isDirectory_iff :
    files.isDirectory path = true ↔ ∃ key, files.entryAt path = .ok (key, .directory) := by
  unfold isDirectory
  rcases files.entryAt path with failure | ⟨key, entry⟩
  · simp
  · cases entry with
    | file old => simp
    | directory => simp
    | link target => simp

theorem isFile_of_readText {text : String} (isRead : files.readText path = .ok text) :
    files.isFile path = true := by
  unfold readText at isRead
  split at isRead
  · rename_i content isContent
    exact isFile_iff.mpr ⟨content, isContent⟩
  · cases isRead

/-- A file of text reads as that text. -/
theorem readText_of_read {text : String} (isRead : files.read path = .ok text.toUTF8) :
    files.readText path = .ok text := by
  unfold readText
  rw [isRead]
  have decoded : String.fromUTF8? text.toUTF8 = some text := by
    unfold String.fromUTF8?
    rw [String.toUTF8_eq_toByteArray, dif_pos text.isValidUTF8]
    rfl
  dsimp only
  rw [decoded]

/-- The two paths lead to one file. -/
def SameFile (files : FileSystem) (left right : Path) : Prop :=
  ∃ key content, files.entryAt left = .ok (key, .file content) ∧
    files.entryAt right = .ok (key, .file content)

theorem sameFile_of_key {leftContent rightContent : ByteArray}
    (isLeft : files.entryAt left = .ok (key, .file leftContent))
    (isRight : files.entryAt right = .ok (key, .file rightContent)) :
    files.SameFile left right := by
  have sameEntry := (lookup_of_entryAt isLeft).symm.trans (lookup_of_entryAt isRight)
  obtain rfl := FileEntry.file.inj (Option.some.inj sameEntry)
  exact ⟨key, leftContent, isLeft, isRight⟩

/-- Both paths lead to files, and to the same key. -/
def leadTogether (files : FileSystem) (left right : Path) : Bool :=
  match files.entryAt left, files.entryAt right with
  | .ok (leftKey, .file _), .ok (rightKey, .file _) => leftKey == rightKey
  | _, _ => false

theorem leadTogether_iff : files.leadTogether left right = true ↔ files.SameFile left right := by
  constructor
  · intro together
    unfold leadTogether at together
    split at together
    · rename_i leftKey _ rightKey _ isLeft isRight
      obtain rfl := eq_of_beq together
      exact sameFile_of_key isLeft isRight
    · cases together
  · rintro ⟨key, content, isLeft, isRight⟩
    unfold leadTogether
    rw [isLeft, isRight]
    exact beq_self_eq_true key

instance (files : FileSystem) (left right : Path) : Decidable (files.SameFile left right) :=
  decidable_of_iff _ leadTogether_iff

theorem SameFile.symm (same : files.SameFile left right) : files.SameFile right left := by
  obtain ⟨key, content, isLeft, isRight⟩ := same
  exact ⟨key, content, isRight, isLeft⟩

/-! ## Putting a file -/

theorem lookup_put (files : FileSystem) {key : FileKey} (notRoot : key ≠ []) (entry : FileEntry)
    (other : FileKey) :
    (files.put key entry).lookup other = if other = key then some entry else files.lookup other := by
  cases other with
  | nil =>
      rw [if_neg (fun same => notRoot same.symm)]
      rfl
  | cons head tail => exact OrderedMap.get?_insert files.entries key (head :: tail) entry

/-- An entry under a free name leaves all other entries. -/
theorem lookup_put_free {other : FileKey} {entry : FileEntry} (notRoot : key ≠ [])
    (free : files.lookup key = none) (new : FileEntry) (isThere : files.lookup other = some entry) :
    (files.put key new).lookup other = some entry := by
  have isOther : other ≠ key := by
    rintro rfl
    rw [free] at isThere
    cases isThere
  rw [lookup_put files notRoot, if_neg isOther]
  exact isThere

/-- An entry under a free name is in no way to another entry. -/
theorem leads_put_free {followLast : Bool} {links : Nat} {here other : FileKey}
    {segments : List String} {entry : FileEntry} (notRoot : key ≠ [])
    (free : files.lookup key = none) (new : FileEntry)
    (leads : Leads files followLast links here segments (.found other entry)) :
    Leads (files.put key new) followLast links here segments (.found other entry) := by
  generalize isPlace : Place.found other entry = place at leads
  induction leads with
  | finish => exact .finish
  | silent isSilent _ inductionHypothesis => exact .silent isSilent (inductionHypothesis isPlace)
  | above _ inductionHypothesis => exact .above (inductionHypothesis isPlace)
  | vacant => cases isPlace
  | vacantDirectory => cases isPlace
  | directory isName isThere _ inductionHypothesis =>
      exact .directory isName (lookup_put_free notRoot free new isThere) (inductionHypothesis isPlace)
  | file isName isThere => exact .file isName (lookup_put_free notRoot free new isThere)
  | lastLink isName isThere stays =>
      exact .lastLink isName (lookup_put_free notRoot free new isThere) stays
  | link isName isThere goesOn _ inductionHypothesis =>
      exact .link isName (lookup_put_free notRoot free new isThere) goesOn
        (inductionHypothesis isPlace)

theorem entryAt_put_free {other : FileKey} {entry : FileEntry} (notRoot : key ≠ [])
    (free : files.lookup key = none) (new : FileEntry)
    (found : files.entryAt path = .ok (other, entry)) :
    (files.put key new).entryAt path = .ok (other, entry) := by
  obtain ⟨usable, leads⟩ := locate_eq_ok_iff.mp (entryAt_eq_ok_iff.mp found)
  exact entryAt_eq_ok_iff.mpr
    (locate_eq_ok_iff.mpr ⟨usable, leads_put_free notRoot free new leads⟩)

/-- The key is that of a file or free. -/
structure IsWritable (files : FileSystem) (key : FileKey) : Prop where
  notRoot : key ≠ []
  holdsFile : ∀ entry, files.lookup key = some entry → ∃ content, entry = .file content

/-- A put file changes what stands under its key and no other way to an entry or a
free name. -/
theorem leads_put {followLast : Bool} {links : Nat} {here : FileKey} {segments : List String}
    {place : Place} (writable : IsWritable files key) (content : ByteArray)
    (leads : Leads files followLast links here segments place)
    (isNoDirectory : ∀ other, place ≠ .vacantDirectory other) :
    Leads (files.put key (.file content)) followLast links here segments
      (place.withFile key content) := by
  have lookup := lookup_put files writable.notRoot (.file content)
  -- Directories and links stay, since the key holds a file or nothing.
  have unchanged : ∀ (other : FileKey) (entry : FileEntry), files.lookup other = some entry →
      (∀ content, entry ≠ .file content) →
        (files.put key (.file content)).lookup other = some entry := by
    intro other entry isThere notFile
    by_cases same : other = key
    · rw [same] at isThere
      obtain ⟨old, isFile⟩ := writable.holdsFile entry isThere
      exact absurd isFile (notFile old)
    · rw [lookup, if_neg same]
      exact isThere
  induction leads with
  | finish => exact .finish
  | silent isSilent _ inductionHypothesis => exact .silent isSilent (inductionHypothesis isNoDirectory)
  | above _ inductionHypothesis => exact .above (inductionHypothesis isNoDirectory)
  | @vacant links here segment isName absent =>
      simp only [Place.withFile]
      by_cases same : here ++ [segment] = key
      · rw [if_pos same, ← same]
        apply Leads.file isName
        rw [same, lookup, if_pos rfl]
      · rw [if_neg same]
        apply Leads.vacant isName
        rw [lookup, if_neg same]
        exact absent
  | vacantDirectory => exact absurd rfl (isNoDirectory _)
  | directory isName isThere _ inductionHypothesis =>
      exact .directory isName (unchanged _ _ isThere (fun _ => FileEntry.noConfusion))
        (inductionHypothesis isNoDirectory)
  | @file links here segment old isName isThere =>
      apply Leads.file isName
      rw [lookup]
      by_cases same : here ++ [segment] = key
      · rw [if_pos same, if_pos same]
      · rw [if_neg same, if_neg same]
        exact isThere
  | lastLink isName isThere stays =>
      exact .lastLink isName (unchanged _ _ isThere (fun _ => FileEntry.noConfusion)) stays
  | link isName isThere goesOn _ inductionHypothesis =>
      exact .link isName (unchanged _ _ isThere (fun _ => FileEntry.noConfusion)) goesOn
        (inductionHypothesis isNoDirectory)

theorem locate_put {followLast : Bool} {place : Place} (writable : IsWritable files key)
    (content : ByteArray) (located : files.locate followLast path = .ok place)
    (isNoDirectory : ∀ other, place ≠ .vacantDirectory other) :
    (files.put key (.file content)).locate followLast path = .ok (place.withFile key content) := by
  obtain ⟨usable, leads⟩ := locate_eq_ok_iff.mp located
  exact locate_eq_ok_iff.mpr ⟨usable, leads_put writable content leads isNoDirectory⟩

/-! ## Writing -/

theorem write_eq_ok (wrote : write path content files = (.ok (), after)) :
    ∃ key, files.writingKey path = .ok key ∧ after = files.put key (.file content) := by
  unfold write at wrote
  split at wrote
  · rename_i key isKey
    exact ⟨key, isKey, (Prod.mk.inj wrote).2.symm⟩
  · cases wrote

/-- The key of a written file is that of the former file or of a free name. -/
theorem writingKey_eq_ok (isKey : files.writingKey path = .ok key) :
    (∃ old, files.locate true path = .ok (.found key (.file old))) ∨
      files.locate true path = .ok (.vacant key) := by
  unfold writingKey at isKey
  split at isKey
  · split at isKey
    · cases isKey
    · cases isKey
  · split at isKey
    · rename_i located
      obtain rfl := Except.ok.inj isKey
      exact .inl ⟨_, located⟩
    · cases isKey
    · rename_i located
      obtain rfl := Except.ok.inj isKey
      exact .inr located
    · cases isKey
    · cases isKey

theorem isWritable_of_writingKey (isKey : files.writingKey path = .ok key) :
    IsWritable files key := by
  rcases writingKey_eq_ok isKey with ⟨old, located⟩ | located
  · have isThere := lookup_of_entryAt (entryAt_eq_ok_iff.mpr located)
    refine ⟨?_, ?_⟩
    · rintro rfl
      cases isThere
    · intro entry isEntry
      rw [isThere] at isEntry
      exact ⟨old, (Option.some.inj isEntry).symm⟩
  · obtain ⟨notRoot, absent⟩ := isTrue_of_leads (locate_eq_ok_iff.mp located).2
    refine ⟨notRoot, ?_⟩
    intro entry isEntry
    rw [absent] at isEntry
    cases isEntry

/-- A written file is at the end of its path. -/
theorem entryAt_put_written (isKey : files.writingKey path = .ok key) (content : ByteArray) :
    (files.put key (.file content)).entryAt path = .ok (key, .file content) := by
  have writable := isWritable_of_writingKey isKey
  apply entryAt_eq_ok_iff.mpr
  rcases writingKey_eq_ok isKey with ⟨old, located⟩ | located
  · rw [locate_put writable content located (fun _ => Place.noConfusion)]
    simp [Place.withFile]
  · rw [locate_put writable content located (fun _ => Place.noConfusion)]
    simp [Place.withFile]

/-- All paths that led to files lead to the same keys as before. -/
theorem entryAt_put_file (writable : IsWritable files key) (content : ByteArray) {otherKey : FileKey}
    {old : ByteArray} (found : files.entryAt path = .ok (otherKey, .file old)) :
    (files.put key (.file content)).entryAt path =
      .ok (otherKey, .file (if otherKey = key then content else old)) :=
  entryAt_eq_ok_iff.mpr
    (locate_put writable content (entryAt_eq_ok_iff.mp found) (fun _ => Place.noConfusion))

/-- A written file is at the end of its path. All paths that led to files lead to the
same keys as before. -/
theorem entryAt_write (wrote : write path content files = (.ok (), after)) :
    ∃ key, after.entryAt path = .ok (key, .file content) ∧
      ∀ other otherKey old, files.entryAt other = .ok (otherKey, .file old) →
        after.entryAt other = .ok (otherKey, .file (if otherKey = key then content else old)) := by
  obtain ⟨key, isKey, rfl⟩ := write_eq_ok wrote
  refine ⟨key, entryAt_put_written isKey content, ?_⟩
  intro other otherKey old found
  exact entryAt_put_file (isWritable_of_writingKey isKey) content found

end FileSystem

end FactoryProxy
