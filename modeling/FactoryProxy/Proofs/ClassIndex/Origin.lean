import FactoryProxy.Proofs.ClassIndex.Ancestry
import FactoryProxy.Proofs.ClassIndex.Rescan
import FactoryProxy.Selection

/-!
Contract: the files that an index is made from.

Every indexed declaration names a scanned file, so the files that artifacts depend on are
scanned ones, and an index is known by the contents of the files of its scan.

Owns: the files of declarations, of ancestries and of artifacts, and a second index of the
same files.
-/

namespace FactoryProxy

open Sequencing

/-! ## Declarations -/

namespace Reflection

mutual

/-- The declarations of a statement are those of the file. -/
theorem file_of_mem_step (file : Path) (scope : Name.NameScope) :
    ∀ (statement : Php.Statement), ∀ declared ∈ (step file scope statement).2,
      declared.file = file
  | .namespaceStart _ => List.forall_mem_nil _
  | .namespaceBlock name body => file_of_mem_declarations file (.ofNamespace name) body
  | .imports _ => List.forall_mem_nil _
  | .declaration _ => List.forall_mem_singleton.mpr rfl
  | .nameless => List.forall_mem_nil _

theorem file_of_mem_declarations (file : Path) (scope : Name.NameScope) :
    ∀ (statements : List Php.Statement), ∀ declared ∈ declarations file scope statements,
      declared.file = file
  | [] => List.forall_mem_nil _
  | statement :: rest => by
      intro declared member
      unfold declarations at member
      rcases List.mem_append.mp member with inStatement | inRest
      · exact file_of_mem_step file scope statement declared inStatement
      · exact file_of_mem_declarations file _ rest declared inRest

end

end Reflection

/-! ## Indexes -/

namespace ClassIndex

variable {files later : FileSystem} {roots : List Path} {exclude : List String}
  {index : ClassIndex} {declared : ClassDeclaration}

theorem file_of_declarationsAt {file : Path} {read : List ClassDeclaration}
    (declares : declarationsAt files file = .ok read) (member : declared ∈ read) :
    declared.file = file := by
  obtain ⟨text, _, rfl⟩ := map_eq_ok.mp declares
  exact Reflection.file_of_mem_declarations file .global _ declared member

/-- An indexed declaration stands in a scanned file. -/
theorem file_mem_of_build (built : build files roots exclude = .ok index) {key : String}
    (found : index.classes.get? key = some declared) : declared.file ∈ index.files := by
  obtain ⟨_, read, declares, added⟩ := build_eq_ok.mp built
  rcases ((addAll_eq_ok keyed_empty added).2 key declared).mp found with inEmpty | ⟨member, _⟩
  · cases inEmpty
  · obtain ⟨ofFile, isRead, inFile⟩ := List.mem_flatten.mp member
    obtain ⟨file, isFile, declaresFile⟩ := exists_left declares isRead
    rw [file_of_declarationsAt declaresFile inFile]
    exact isFile

theorem file_mem_of_mem_toList (built : build files roots exclude = .ok index)
    (member : declared ∈ index.toList) : declared.file ∈ index.files := by
  obtain ⟨⟨key, value⟩, inEntries, rfl⟩ := List.mem_map.mp member
  exact file_mem_of_build built (OrderedMap.get?_of_mem inEntries)

/-- The files of an ancestry are scanned ones. -/
theorem ancestryFiles_mem_of_build (built : build files roots exclude = .ok index)
    (member : declared ∈ index.toList) {path : Path}
    (inAncestry : path ∈ (index.ancestryFiles declared).toList) : path ∈ index.files := by
  rcases origin_of_ancestryFiles inAncestry with rfl | ⟨key, _, above, found, rfl⟩
  · exact file_mem_of_mem_toList built member
  · exact file_mem_of_build built found

theorem declarationsAt_congr {file : Path} (same : later.read file = files.read file) :
    declarationsAt later file = declarationsAt files file := by
  unfold declarationsAt FileSystem.readText
  rw [same]

/-- The files of an index are indexed again to the same index while they are the files of
a scan and have their contents. -/
theorem build_again (built : build files roots exclude = .ok index)
    (isFound : SourceFiles.find later roots exclude = .ok index.files)
    (same : ∀ file ∈ index.files, later.read file = files.read file) :
    build later roots exclude = .ok index := by
  obtain ⟨_, read, declares, added⟩ := build_eq_ok.mp built
  refine build_eq_ok.mpr ⟨isFound, read, ?_, added⟩
  refine forall₂_of_mem declares (fun file member _ _ declaresFile => ?_)
  rw [declarationsAt_congr (same file member)]
  exact declaresFile

end ClassIndex

/-! ## Artifacts -/

namespace Artifact

/-- Artifacts depend on scanned files only. -/
theorem dependencies_mem_of_build {files : FileSystem} {roots : List Path}
    {exclude : List String} {index : ClassIndex} {targets : TargetTypes} {namespaceName : String}
    (built : ClassIndex.build files roots exclude = .ok index) {artifact : Artifact}
    (member : artifact ∈ all index targets namespaceName) {path : Path}
    (isDependency : path ∈ artifact.dependencies.toList) : path ∈ index.files := by
  rcases List.mem_cons.mp member with isMarker | isFactory
  · rw [isMarker] at isDependency
    cases isDependency
  · obtain ⟨declared, isSelected, rfl⟩ := List.mem_map.mp isFactory
    exact ClassIndex.ancestryFiles_mem_of_build built (List.mem_filter.mp isSelected).1
      isDependency

end Artifact

end FactoryProxy
