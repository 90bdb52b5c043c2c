import FactoryProxy.Proofs.ClassIndex.Construction
import FactoryProxy.Proofs.ClassIndex.Relocation
import FactoryProxy.Proofs.Dependency.Expiry
import FactoryProxy.Proofs.FileSystem.Spelling

/-!
Contract: two scans that find the same texts give the same index.

The paths of the second scan may be spelled in another way, and the index of either
scan is compared without the names of files.

Owns: what a scan lists, the steps of an index, and the index of a later scan.
-/

namespace FactoryProxy

open Sequencing

/-! ## Scans -/

namespace SourceFiles

variable {files : FileSystem} {roots found : List Path} {exclude : List String}

theorem increasing_of_find (isFound : find files roots exclude = .ok found) :
    found.Pairwise (fun left right => compare left right = .lt) := by
  obtain ⟨patterns, _, walking⟩ := bind_eq_ok.mp isFound
  obtain ⟨listed, _, finished⟩ := bind_eq_ok.mp walking
  obtain rfl := Except.ok.inj finished
  exact OrderedSet.increasing_toList _

/-- Every path of a scan leads to a file. -/
theorem isFile_of_find (isFound : find files roots exclude = .ok found) {path : Path}
    (member : path ∈ found) : files.isFile path = true := by
  obtain ⟨patterns, _, walking⟩ := bind_eq_ok.mp isFound
  obtain ⟨listed, _, finished⟩ := bind_eq_ok.mp walking
  obtain rfl := Except.ok.inj finished
  have counted := (List.mem_filter.mp (OrderedSet.mem_of_mem_toList_ofList member)).2
  simp only [counts, Bool.and_eq_true] at counted
  exact counted.1.1

end SourceFiles

/-! ## Indexes -/

namespace ClassIndex

variable {files later : FileSystem} {roots laterRoots found : List Path}
  {exclude laterExclude : List String} {index : ClassIndex}

/-- An index holds the declarations of the scanned files in their order. -/
theorem build_eq_ok : build files roots exclude = .ok index ↔
    SourceFiles.find files roots exclude = .ok index.files ∧
      ∃ declared, List.Forall₂ (fun file read => declarationsAt files file = .ok read)
          index.files declared ∧
        addAll ∅ declared.flatten = .ok index.classes := by
  unfold build
  constructor
  · intro built
    obtain ⟨found, isFound, reading⟩ := bind_eq_ok.mp built
    obtain ⟨declared, isRead, indexing⟩ := bind_eq_ok.mp reading
    obtain ⟨collected, isCollected, finished⟩ := bind_eq_ok.mp indexing
    obtain rfl := Except.ok.inj finished
    obtain ⟨classes, added, rfl⟩ := map_eq_ok.mp isCollected
    exact ⟨isFound, declared, mapM_eq_ok.mp isRead, added⟩
  · rintro ⟨isFound, declared, isRead, added⟩
    refine bind_eq_ok.mpr ⟨index.files, isFound, ?_⟩
    refine bind_eq_ok.mpr ⟨declared, mapM_eq_ok.mpr isRead, ?_⟩
    exact bind_eq_ok.mpr ⟨⟨index.classes, []⟩, map_eq_ok.mpr ⟨index.classes, added, rfl⟩, rfl⟩

/-- A file declares the same wherever and whenever its content is the same. -/
theorem declarationsAt_of_read {file laterFile : Path} {content : ByteArray}
    {declared : List ClassDeclaration} (isRead : files.read file = .ok content)
    (isLaterRead : later.read laterFile = .ok content)
    (declares : declarationsAt files file = .ok declared) :
    ∃ laterDeclared, declarationsAt later laterFile = .ok laterDeclared ∧
      laterDeclared.map ClassDeclaration.unplaced = declared.map ClassDeclaration.unplaced := by
  unfold declarationsAt at declares ⊢
  obtain ⟨text, isText, rfl⟩ := map_eq_ok.mp declares
  have isLaterText : later.readText laterFile = .ok text := by
    have texts := mapError_eq_ok.mp isText
    unfold FileSystem.readText at texts ⊢
    rw [isRead] at texts
    rw [isLaterRead]
    exact texts
  refine ⟨Reflection.declarationsIn laterFile text, ?_, ?_⟩
  · rw [isLaterText]
    rfl
  · rw [Reflection.declarationsIn_unplaced, Reflection.declarationsIn_unplaced]

/-- The later file has the content that the former one has. -/
def SameContent (files later : FileSystem) (laterFile file : Path) : Prop :=
  ∃ content, files.read file = .ok content ∧ later.read laterFile = .ok content

/-- Files of the same contents declare the same in order. -/
theorem declarationsAt_of_sameContent {scanned : List Path}
    {declared : List (List ClassDeclaration)}
    (same : List.Forall₂ (SameContent files later) found scanned)
    (declares : List.Forall₂ (fun file read => declarationsAt files file = .ok read)
      scanned declared) :
    ∃ laterDeclared,
      List.Forall₂ (fun file read => declarationsAt later file = .ok read) found laterDeclared ∧
        laterDeclared.flatten.map ClassDeclaration.unplaced =
          declared.flatten.map ClassDeclaration.unplaced := by
  induction same generalizing declared with
  | nil =>
      cases declares
      exact ⟨[], .nil, rfl⟩
  | cons sameHead _ inductionHypothesis =>
      obtain ⟨content, isRead, isLaterRead⟩ := sameHead
      obtain ⟨head, tail, declaresHead, declaresTail, rfl⟩ :=
        List.forall₂_cons_left_iff.mp declares
      obtain ⟨laterHead, laterDeclares, sameDeclared⟩ :=
        declarationsAt_of_read isRead isLaterRead declaresHead
      obtain ⟨laterTail, laterDeclaresTail, sameTail⟩ := inductionHypothesis declaresTail
      refine ⟨laterHead :: laterTail, .cons laterDeclares laterDeclaresTail, ?_⟩
      rw [List.flatten_cons, List.flatten_cons, List.map_append, List.map_append, sameDeclared,
        sameTail]

/-- A later scan that finds the same contents in the same order gives the same index. -/
theorem build_of_sameContent (built : build files roots exclude = .ok index)
    (isFound : SourceFiles.find later laterRoots laterExclude = .ok found)
    (same : List.Forall₂ (SameContent files later) found index.files) :
    ∃ laterIndex, build later laterRoots laterExclude = .ok laterIndex ∧
      laterIndex.unplaced = index.unplaced := by
  obtain ⟨_, declared, declares, added⟩ := build_eq_ok.mp built
  obtain ⟨laterDeclared, laterDeclares, sameDeclared⟩ :=
    declarationsAt_of_sameContent same declares
  obtain ⟨laterClasses, laterAdded, sameClasses⟩ :=
    addAll_of_unplaced sameDeclared.symm added
  refine ⟨⟨laterClasses, found⟩,
    build_eq_ok.mpr ⟨isFound, laterDeclared, laterDeclares, laterAdded⟩, ?_⟩
  unfold unplaced
  rw [sameClasses]

end ClassIndex

end FactoryProxy
