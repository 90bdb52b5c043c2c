import FactoryProxy.Proofs.ClassIndex.Distinctness
import FactoryProxy.Proofs.ClassIndex.Origin
import FactoryProxy.Proofs.FileSystem.Overlapping

/-!
Contract: what an ambiguous class says about the scanned directories.

An index of directories is refused if two places of the listed files declare one class. In a
file system without links the places are two declarations, unless one file is listed under
two paths. That takes overlapping directories that are not spelled alike. An index is never
built while a file that is listed twice declares something.

Owns: the places of declarations, and when an ambiguous class is declared twice.
-/

namespace FactoryProxy.ClassIndex

open FileSystem (HasNoLinks IsBelow SameFile WellFormed)
open Sequencing SourceFiles

variable {files : FileSystem} {roots found : List Path} {exclude : List String}
  {declared : List (List ClassDeclaration)} {first second : ClassDeclaration}

/-! ## Places of declarations -/

/-- The declaration stands at the position in the file at the path. -/
def Declares (files : FileSystem) (path : Path) (position : Nat) (declaration : ClassDeclaration) :
    Prop :=
  ∃ read, declarationsAt files path = .ok read ∧ read[position]? = some declaration

/-- Two different declarations of the class exist, one in each file: where they stand at the
same position the files differ. -/
def DeclaredTwice (files : FileSystem) (className : String) (firstFile secondFile : Path) : Prop :=
  ∃ firstPosition secondPosition first second,
    Declares files firstFile firstPosition first ∧
      Declares files secondFile secondPosition second ∧
      second.name = className ∧ first.key = second.key ∧
      (firstPosition = secondPosition → ¬ files.SameFile firstFile secondFile)

/-- The declarations stand at different places of the listed files. -/
def AreApart (files : FileSystem) (found : List Path) (first second : ClassDeclaration) : Prop :=
  first.file ∈ found ∧ second.file ∈ found ∧
    ∃ firstPosition secondPosition, Declares files first.file firstPosition first ∧
      Declares files second.file secondPosition second ∧
      (first.file = second.file → firstPosition ≠ secondPosition)

theorem exists_declares {path : Path} {read : List ClassDeclaration}
    (isRead : declarationsAt files path = .ok read) (member : first ∈ read) :
    first.file = path ∧ ∃ position, Declares files first.file position first := by
  obtain rfl := file_of_declarationsAt isRead member
  obtain ⟨position, isThere⟩ := List.getElem?_of_mem member
  exact ⟨rfl, position, read, isRead, isThere⟩

/-- Two declarations of a listed file stand apart. -/
theorem areApart_of_file {path : Path} {before after : List ClassDeclaration}
    (isListed : path ∈ found)
    (isRead : declarationsAt files path = .ok (before ++ second :: after))
    (isFirst : first ∈ before) : AreApart files found first second := by
  have firstFile : first.file = path :=
    file_of_declarationsAt isRead (List.mem_append_left _ isFirst)
  have secondFile : second.file = path :=
    file_of_declarationsAt isRead (List.mem_append_right before List.mem_cons_self)
  obtain ⟨position, isBefore, isThere⟩ := List.getElem_of_mem isFirst
  refine ⟨firstFile ▸ isListed, secondFile ▸ isListed, position, before.length,
    ⟨_, firstFile ▸ isRead, ?_⟩, ⟨_, secondFile ▸ isRead, ?_⟩, fun _ => Nat.ne_of_lt isBefore⟩
  · rw [List.getElem?_append_left isBefore, List.getElem?_eq_getElem isBefore, isThere]
  · rw [List.getElem?_append_right (Nat.le_refl _), Nat.sub_self]
    rfl

/-- Declarations of two listed files stand apart. -/
theorem areApart_of_files {path : Path} {read : List ClassDeclaration}
    (once : (path :: found).Nodup) (isRead : declarationsAt files path = .ok read)
    (reads : List.Forall₂ (fun file read => declarationsAt files file = .ok read) found declared)
    (isFirst : first ∈ read) (isSecond : second ∈ declared.flatten) :
    AreApart files (path :: found) first second := by
  obtain ⟨block, isBlock, inBlock⟩ := List.mem_flatten.mp isSecond
  obtain ⟨other, isOther, otherRead⟩ := exists_left reads isBlock
  obtain ⟨firstFile, firstPosition, firstDeclared⟩ := exists_declares isRead isFirst
  obtain ⟨secondFile, secondPosition, secondDeclared⟩ := exists_declares otherRead inBlock
  refine ⟨firstFile ▸ List.mem_cons_self, secondFile ▸ List.mem_cons_of_mem path isOther,
    firstPosition, secondPosition, firstDeclared, secondDeclared, ?_⟩
  intro sameFile
  rw [firstFile, secondFile] at sameFile
  rw [sameFile] at once
  exact absurd isOther (List.nodup_cons.mp once).1

/-- Of two declarations in a row the first one stands at another place. -/
theorem areApart_of_split {before after : List ClassDeclaration} (once : found.Nodup)
    (reads : List.Forall₂ (fun file read => declarationsAt files file = .ok read) found declared)
    (isSplit : declared.flatten = before ++ second :: after) (isFirst : first ∈ before) :
    AreApart files found first second := by
  induction reads generalizing before with
  | nil =>
      exact absurd isSplit.symm
        (List.append_ne_nil_of_right_ne_nil before (List.cons_ne_nil second after))
  | @cons path read found declared isRead reads inductionHypothesis =>
      have onceBehind := (List.nodup_cons.mp once).2
      rw [List.flatten_cons] at isSplit
      -- The second declaration stands behind the first file, or in it.
      rcases List.append_eq_append_iff.mp isSplit with
        ⟨beforeBehind, rfl, isBehind⟩ | ⟨rest, rfl, isRest⟩
      · rcases List.mem_append.mp isFirst with inRead | inBehind
        · refine areApart_of_files once isRead reads inRead ?_
          rw [isBehind]
          exact List.mem_append_right _ List.mem_cons_self
        · obtain ⟨firstListed, secondListed, apart⟩ :=
            inductionHypothesis onceBehind isBehind inBehind
          exact ⟨List.mem_cons_of_mem path firstListed, List.mem_cons_of_mem path secondListed,
            apart⟩
      · cases rest with
        | nil =>
            rw [List.append_nil] at isRead
            refine areApart_of_files once isRead reads isFirst ?_
            rw [List.nil_append] at isRest
            rw [← isRest]
            exact List.mem_cons_self
        | cons head rest =>
            obtain ⟨rfl, _⟩ := List.cons.inj isRest
            exact areApart_of_file List.mem_cons_self isRead isFirst

/-! ## Ambiguous classes -/

theorem declarationsAt_ne_ambiguous {path firstFile secondFile : Path} {className : String} :
    declarationsAt files path ≠ .error (.ambiguousClass className firstFile secondFile) := by
  intro failed
  unfold declarationsAt at failed
  have unread := map_eq_error.mp failed
  cases isText : files.readText path with
  | ok text =>
      rw [isText] at unread
      cases unread
  | error cause =>
      rw [isText] at unread
      cases unread

/-- An ambiguous class has two declarations in listed files, or one that is listed twice. -/
theorem declared_of_ambiguous {firstFile secondFile : Path} {className : String}
    (isFound : find files roots exclude = .ok found)
    (failed : build files roots exclude =
      .error (.ambiguousClass className firstFile secondFile)) :
    firstFile ∈ found ∧ secondFile ∈ found ∧
      (DeclaredTwice files className firstFile secondFile ∨
        firstFile ≠ secondFile ∧ files.SameFile firstFile secondFile) := by
  have once : found.Nodup :=
    OrderedMap.nodup_of_increasing (increasing_of_find isFound)
  unfold build at failed
  rw [isFound] at failed
  obtain notFound | ⟨_, isFound', reading⟩ := bind_eq_error.mp failed
  · cases notFound
  obtain rfl := Except.ok.inj isFound'
  obtain unread | ⟨declared, isRead, indexing⟩ := bind_eq_error.mp reading
  · obtain ⟨path, _, pathUnread⟩ := exists_of_mapM_error unread
    exact absurd pathUnread declarationsAt_ne_ambiguous
  obtain ambiguous | ⟨_, _, finished⟩ := bind_eq_error.mp indexing
  · obtain ⟨first, second, ⟨before, after, isSplit, _, isFirst, sameKey⟩, isFailure⟩ :=
      ofClasses_eq_error_iff.mp ambiguous
    injection isFailure with isName isFirstFile isSecondFile
    subst isName isFirstFile isSecondFile
    obtain ⟨firstListed, secondListed, firstPosition, secondPosition, firstDeclared,
      secondDeclared, apart⟩ := areApart_of_split once (mapM_eq_ok.mp isRead) isSplit isFirst
    refine ⟨firstListed, secondListed, ?_⟩
    by_cases together : firstPosition = secondPosition ∧ files.SameFile first.file second.file
    · exact .inr ⟨fun sameFile => apart sameFile together.1, together.2⟩
    · exact .inl ⟨firstPosition, secondPosition, first, second, firstDeclared, secondDeclared, rfl,
        sameKey, fun samePosition sameFile => together ⟨samePosition, sameFile⟩⟩
  · cases finished

/-- Where an index is built, a file that is listed under two paths declares nothing. -/
theorem declaresNothing_of_listedTwice {index : ClassIndex} {left right : Path}
    (built : build files roots exclude = .ok index) (isLeft : left ∈ index.files)
    (isRight : right ∈ index.files) (together : files.SameFile left right)
    (different : left ≠ right) : declarationsAt files left = .ok [] := by
  obtain ⟨_, declared, reads, added⟩ := build_eq_ok.mp built
  have distinct : DistinctKeys declared.flatten :=
    ofClasses_isOk_iff.mp ⟨⟨index.classes, []⟩, map_eq_ok.mpr ⟨index.classes, added, rfl⟩⟩
  obtain ⟨leftRead, isLeftRead, leftDeclares⟩ := exists_right reads isLeft
  obtain ⟨key, content, leftThere, rightThere⟩ := together
  obtain ⟨rightRead, rightDeclares, sameDeclared⟩ := declarationsAt_of_read
    (FileSystem.read_eq_ok_iff.mpr ⟨key, leftThere⟩)
    (FileSystem.read_eq_ok_iff.mpr ⟨key, rightThere⟩) leftDeclares
  cases leftRead with
  | nil => exact leftDeclares
  | cons first others =>
      obtain ⟨second, behind, rfl, isMoved, _⟩ := List.map_eq_cons_iff.mp sameDeclared
      obtain ⟨rightBlock, isRightRead, declaresRight⟩ := exists_right reads isRight
      obtain rfl := Except.ok.inj (rightDeclares.symm.trans declaresRight)
      have sameDeclaration : second = first := List.inj_on_of_nodup_map distinct
        (List.mem_flatten_of_mem isRightRead List.mem_cons_self)
        (List.mem_flatten_of_mem isLeftRead List.mem_cons_self)
        (ClassDeclaration.Moved.sameKey isMoved)
      have leftFile := file_of_declarationsAt leftDeclares List.mem_cons_self
      have rightFile := file_of_declarationsAt rightDeclares List.mem_cons_self
      rw [sameDeclaration, leftFile] at rightFile
      exact absurd rightFile different

/-! ## Overlapping directories -/

/-- Without links a scan of directories lists what counts below them, in one spelling of
each path. It lists every file once exactly if directories that overlap are spelled alike,
as those are that follow a common start by names. A class is ambiguous only if it is declared
twice or one file is listed twice, and where nothing is ambiguous a file that is listed twice
declares nothing. -/
theorem scanned_once_iff_spelled_alike {patterns : List (List Glob.Token)}
    (wellFormed : WellFormed files) (noLinks : HasNoLinks files)
    (areDirectories : ∀ root ∈ roots, files.isDirectory root = true)
    (isCompiled : compile exclude = .ok patterns) :
    ∃ found, find files roots exclude = .ok found ∧
      (∀ path ∈ found, counts files patterns path = true ∧
        ∃ root ∈ roots, isStandardInput root = false ∧ IsBelow root path) ∧
      (∀ root ∈ roots, isStandardInput root = false → ∀ path, IsBelow root path →
        counts files patterns path = true →
          ∃ listed ∈ found, listed.components = path.components ∧ files.SameFile listed path) ∧
      ((∀ left ∈ found, ∀ right ∈ found, files.SameFile left right → left = right) ↔
        SpelledAlike files patterns roots) ∧
      (∀ start : List Path.Component,
        (∀ root ∈ roots, ∃ names : List String, root.components = start ++ names.map .normal) →
          SpelledAlike files patterns roots) ∧
      (∀ className firstFile secondFile,
        build files roots exclude = .error (.ambiguousClass className firstFile secondFile) →
          firstFile ∈ found ∧ secondFile ∈ found ∧
            (DeclaredTwice files className firstFile secondFile ∨
              firstFile ≠ secondFile ∧ files.SameFile firstFile secondFile)) ∧
      ∀ index, build files roots exclude = .ok index →
        ∀ left ∈ found, ∀ right ∈ found, files.SameFile left right → left ≠ right →
          declarationsAt files left = .ok [] := by
  obtain ⟨found, isFound⟩ := find_of_noLinks noLinks areDirectories isCompiled
  refine ⟨found, isFound, ?_, ?_, listedOnce_iff wellFormed noLinks isCompiled isFound, ?_, ?_, ?_⟩
  · intro path member
    exact isBelow_of_mem_find wellFormed isCompiled isFound member
  · intro root isRoot notInput path isBelow isCounted
    obtain ⟨listed, isListed, same⟩ :=
      exists_mem_find wellFormed isCompiled isFound isRoot notInput isBelow isCounted
    exact ⟨listed, isListed, same, FileSystem.sameFile_of_components same
      (isFile_of_find isFound isListed) (isFile_of_counts isCounted)⟩
  · intro start starts
    exact spelledAlike_of_start noLinks starts
  · intro className firstFile secondFile failed
    exact declared_of_ambiguous isFound failed
  · intro index built left isLeft right isRight together different
    obtain rfl := Except.ok.inj (isFound.symm.trans (build_eq_ok.mp built).1)
    exact declaresNothing_of_listedTwice built isLeft isRight together different

def nestedSources : FileSystem where
  entries := .ofList [
    (["src"], .directory),
    (["src", "a.php"], .file "<?php class A{}".toUTF8),
    (["src", "sub"], .directory),
    (["src", "sub", "b.php"], .file "<?php class B{}".toUTF8)]
  current := []

def nestedRoots : List Path := [⟨"src/"⟩, ⟨"src//sub/."⟩]

set_option maxRecDepth 100000 in
/-- A directory in another one, with slashes and dots, adds no path. -/
theorem nested_directories_scanned_once :
    find nestedSources nestedRoots [] = .ok [⟨"src/a.php"⟩, ⟨"src/sub/b.php"⟩] ∧
      SpelledAlike nestedSources [] nestedRoots := by
  have areDirectories : ∀ root ∈ nestedRoots, nestedSources.isDirectory root = true := by
    decide +kernel
  have isCompiled : compile [] = .ok [] := rfl
  have followNames : ∀ root ∈ nestedRoots, ∃ names : List String,
      root.components = [] ++ names.map .normal :=
    List.forall_mem_cons.mpr ⟨⟨["src"], by decide +kernel⟩,
      List.forall_mem_singleton.mpr ⟨["src", "sub"], by decide +kernel⟩⟩
  obtain ⟨_, _, _, _, _, alike, _⟩ := scanned_once_iff_spelled_alike
    (by decide +kernel) (by decide +kernel) areDirectories isCompiled
  exact ⟨by decide +kernel, alike [] followNames⟩

set_option maxRecDepth 100000 in
/-- A directory that is reached again by a detour is scanned twice, and a class with one
declaration is ambiguous. -/
theorem detour_is_scanned_twice :
    find nestedSources [⟨"src/sub"⟩, ⟨"src/../src/sub"⟩] [] =
        .ok [⟨"src/../src/sub/b.php"⟩, ⟨"src/sub/b.php"⟩] ∧
      nestedSources.SameFile ⟨"src/../src/sub/b.php"⟩ ⟨"src/sub/b.php"⟩ ∧
      build nestedSources [⟨"src/sub"⟩, ⟨"src/../src/sub"⟩] [] =
        .error (.ambiguousClass "B" ⟨"src/../src/sub/b.php"⟩ ⟨"src/sub/b.php"⟩) ∧
      (build nestedSources [⟨"src/sub"⟩] []).map (fun index =>
          index.toList.map ClassDeclaration.name) = .ok ["B"] := by
  decide +kernel

end FactoryProxy.ClassIndex
