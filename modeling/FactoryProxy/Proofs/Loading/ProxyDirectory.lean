import FactoryProxy.Loading.ProxyLoader
import FactoryProxy.Proofs.Artifact.Naming
import FactoryProxy.Proofs.Path.Parent

/-!
Contract: where the files are that a proxy loader gives.

The file of a requested type is named by what stands below the namespace, without
separators. The name is joined to the directory as a path. Only a name without slashes
stays one component, so only then the file is in the proxy directory itself.

Owns: the place of the file of a base name, and of resolved files.
-/

namespace FactoryProxy.ProxyLoader

variable {loader : ProxyLoader} {files : FileSystem} {typeName base : String} {path : Path}

/-- The path is in the directory of the loader, under the given name. -/
structure IsInside (loader : ProxyLoader) (name : String) (path : Path) : Prop where
  parent : ∃ above, path.parent? = some above ∧ above.components = loader.directory.components
  fileName : path.fileName? = some name

/-- The file of a base name is in the directory exactly if the name has no slash. -/
theorem isInside_iff (loader : ProxyLoader) (base : String) :
    loader.IsInside (Artifact.fileName base) (Artifact.pathIn loader.directory base) ↔
      '/' ∉ base.toList := by
  constructor
  · intro inside member
    have inName : '/' ∈ (Artifact.fileName base).toList := by
      unfold Artifact.fileName
      rw [String.toList_append, String.toList_append]
      exact List.mem_append_left _ (List.mem_append_left _ member)
    have isFree := Path.free_of_fileName? inside.fileName '/' inName
    cases isFree
  · intro free
    have entryName := Artifact.isEntryName_fileName free
    exact ⟨Path.parent?_child loader.directory entryName,
      Path.fileName?_child loader.directory entryName⟩

/-- A loader gives the file of the base name of a type of its namespace, if it exists. -/
theorem resolve_eq_some_iff : loader.resolve files typeName = some path ↔
    ∃ base, Artifact.baseName? loader.namespaceName typeName = some base ∧
      path = Artifact.pathIn loader.directory base ∧ files.isFile path = true := by
  unfold resolve
  rw [Option.filter_eq_some_iff, Option.map_eq_some_iff]
  constructor
  · rintro ⟨⟨base, isBase, rfl⟩, isFile⟩
    exact ⟨base, isBase, rfl, isFile⟩
  · rintro ⟨base, isBase, rfl, isFile⟩
    exact ⟨⟨base, isBase, rfl⟩, isFile⟩

/-- A resolved file is in the proxy directory under the requested base name exactly if
that name has no slash. -/
theorem resolved_inside_iff (resolved : loader.resolve files typeName = some path) :
    ∃ base, Artifact.baseName? loader.namespaceName typeName = some base ∧
      files.isFile path = true ∧
      (loader.IsInside (Artifact.fileName base) path ↔ '/' ∉ base.toList) := by
  obtain ⟨base, isBase, rfl, isFile⟩ := resolve_eq_some_iff.mp resolved
  exact ⟨base, isBase, isFile, isInside_iff loader base⟩

/-- A generated file in the directory `p` and a file next to that directory. -/
def fileOutside : FileSystem where
  entries := .ofList [
    (["p"], .directory),
    (["p", "A.php"], .file "<?php".toUTF8),
    (["secret.php"], .file "<?php".toUTF8)]
  current := []

theorem plain_request_stays_inside :
    (ProxyLoader.mk ⟨"p"⟩ "G").resolve fileOutside "\\g\\A" = some ⟨"p/A.php"⟩ ∧
      (ProxyLoader.mk ⟨"p"⟩ "G").IsInside (Artifact.fileName "A") ⟨"p/A.php"⟩ := by
  have resolved : (ProxyLoader.mk ⟨"p"⟩ "G").resolve fileOutside "\\g\\A" = some ⟨"p/A.php"⟩ := by
    decide +kernel
  obtain ⟨base, isBase, _, inside⟩ := resolved_inside_iff resolved
  obtain rfl : base = "A" :=
    Option.some.inj (isBase.symm.trans (by decide +kernel))
  exact ⟨resolved, inside.mpr (by decide)⟩

/-- A slash in the name of a type is not taken out, and leads out of the directory. -/
theorem request_leaves_directory :
    ¬ ∀ (loader : ProxyLoader) (files : FileSystem) (typeName : String) (path : Path),
      loader.resolve files typeName = some path →
        ∃ base, Artifact.baseName? loader.namespaceName typeName = some base ∧
          loader.IsInside (Artifact.fileName base) path := by
  intro always
  have resolved : (ProxyLoader.mk ⟨"p"⟩ "G").resolve fileOutside "G\\../secret" =
      some ⟨"p/../secret.php"⟩ := by
    decide +kernel
  obtain ⟨base, _, ⟨above, isAbove, same⟩, _⟩ := always _ _ _ _ resolved
  have isParent : (Path.mk "p/../secret.php").parent? = some ⟨"p/.."⟩ := by decide +kernel
  obtain rfl := Option.some.inj (isAbove.symm.trans isParent)
  revert same
  decide +kernel

end FactoryProxy.ProxyLoader
