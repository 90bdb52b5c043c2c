import FactoryProxy.Container.Manifest
import FactoryProxy.Proofs.FileSystem.Writing
import FactoryProxy.Proofs.Json.Layout
import FactoryProxy.Proofs.OrderedMap.Rebuild
import FactoryProxy.Proofs.Sequencing

/-!
Contract: a container is read back from its manifest.

Owns: the reading of each part of a container from the value that was written for it,
and of the whole manifest, from a text or from a file.
-/

namespace FactoryProxy

open Json (Value)

namespace Json.Value

/-! ## Lists and maps -/

theorem listOf?_map {α : Type} {make : α → Value} {read : Value → Option α}
    (elements : List α) (reads : ∀ element, read (make element) = some element) :
    (list (elements.map make)).listOf? read = some elements :=
  Sequencing.mapM_map_eq_some (fun element _ => reads element)

theorem entriesOf?_map {α : Type} (make : α → Value) {read : Value → Option α}
    (entries : List (String × α)) (reads : ∀ value, read (make value) = some value) :
    (object (entries.map (fun entry => (entry.1, make entry.2)))).entriesOf? read =
      some entries := by
  apply Sequencing.mapM_map_eq_some
  intro entry member
  rw [reads entry.2]
  rfl

end Json.Value

/-! ## The parts of a container -/

namespace DependencySet

theorem digestsOfJson?_digestsToJson (digests : OrderedMap Path String) :
    digestsOfJson? (digestsToJson digests) = some digests := by
  have entries : (digestsToJson digests).entriesOf? Value.text? =
      some (digests.entries.map (fun entry => (entry.1.text, entry.2))) := by
    have written : digestsToJson digests = .object
        ((digests.entries.map (fun entry => (entry.1.text, entry.2))).map
          (fun entry => (entry.1, .text entry.2))) := by
      unfold digestsToJson
      rw [List.map_map]
      rfl
    rw [written]
    exact Value.entriesOf?_map _ _ (fun _ => rfl)
  have readBack : (digests.entries.map (fun entry => (entry.1.text, entry.2))).map
      (fun entry => ((⟨entry.1⟩ : Path), entry.2)) = digests.entries := by
    rw [List.map_map]
    exact List.map_id _
  unfold digestsOfJson?
  rw [entries, Option.map_some, readBack, OrderedMap.ofList_entries]

theorem ofJson?_toJson (set : DependencySet) : ofJson? set.toJson = some set := by
  have artifacts : (Value.list (set.artifacts.map (fun path => .text path.text))).listOf?
      Value.text? = some (set.artifacts.map Path.text) := by
    have written : set.artifacts.map (fun path => Value.text path.text) =
        (set.artifacts.map Path.text).map Value.text := by
      rw [List.map_map]
      rfl
    rw [written]
    exact Value.listOf?_map _ (fun _ => rfl)
  have readBack : (set.artifacts.map Path.text).map Path.mk = set.artifacts := by
    rw [List.map_map]
    exact List.map_id _
  have fields : set.toJson.record? ["files", "scanned", "artifacts", "fingerprint"] =
      some [some (digestsToJson set.files), some (digestsToJson set.scanned),
        some (.list (set.artifacts.map (fun path => .text path.text))),
        some (.text set.fingerprint)] := by
    rfl
  unfold ofJson?
  rw [fields]
  simp only [digestsOfJson?_digestsToJson, artifacts, Value.text?, Option.bind_eq_bind,
    Option.bind_some, readBack]
  rfl

end DependencySet

namespace Definition

theorem ofJson?_toJson (definition : Definition) : ofJson? definition.toJson = some definition := by
  have tags : (Value.object (definition.tags.entries.map (fun entry =>
      (entry.1, .list (entry.2.map .text))))).entriesOf? (Value.listOf? Value.text?) =
        some definition.tags.entries := by
    have texts : ∀ metadata : List String,
        (Value.list (metadata.map .text)).listOf? Value.text? = some metadata :=
      fun metadata => Value.listOf?_map metadata (fun _ => rfl)
    exact Value.entriesOf?_map (fun metadata : List String => .list (metadata.map .text))
      definition.tags.entries texts
  have fields : definition.toJson.record? ["implement", "tags"] =
      some [some (.text definition.implement),
        some (.object (definition.tags.entries.map (fun entry =>
          (entry.1, .list (entry.2.map .text)))))] := by
    rfl
  unfold ofJson?
  rw [fields]
  simp only [Value.text?, tags, Option.bind_eq_bind, Option.bind_some, OrderedMap.ofList_entries]
  rfl

end Definition

namespace Initializer

theorem ofJson?_toJson (initializer : Initializer) :
    ofJson? initializer.toJson = some initializer := by
  have fields : initializer.toJson.record? ["kind", "dir", "namespace"] =
      some [some (.text kind), some (.text initializer.directory.text),
        some (.text initializer.namespaceName)] := by
    rfl
  unfold ofJson?
  rw [if_pos (by rfl), fields]
  rfl

end Initializer

namespace Container

theorem namedOfJson?_namedToJson (named : String × Definition) :
    namedOfJson? (namedToJson named) = some named := by
  have fields : (namedToJson named).record? ["name", "definition"] =
      some [some (.text named.1), some named.2.toJson] := by
    rfl
  unfold namedOfJson?
  rw [fields]
  simp only [Value.text?, Definition.ofJson?_toJson, Option.bind_eq_bind, Option.bind_some]
  rfl

theorem ofJson?_toJson (container : Container) : ofJson? container.toJson = some container := by
  have parameters : (Value.object (container.parameters.entries.map (fun entry =>
      (entry.1, .text entry.2)))).entriesOf? Value.text? = some container.parameters.entries :=
    Value.entriesOf?_map _ _ (fun _ => rfl)
  have definitions : (Value.list (container.definitions.map namedToJson)).listOf? namedOfJson? =
      some container.definitions :=
    Value.listOf?_map _ namedOfJson?_namedToJson
  have initializers : (Value.list (container.initializers.map Initializer.toJson)).listOf?
      Initializer.ofJson? = some container.initializers :=
    Value.listOf?_map _ Initializer.ofJson?_toJson
  have fields : container.toJson.record?
      ["parameters", "definitions", "dependencies", "initializers"] =
      some [some (.object (container.parameters.entries.map (fun entry =>
          (entry.1, .text entry.2)))),
        some (.list (container.definitions.map namedToJson)),
        some container.dependencies.toJson,
        some (.list (container.initializers.map Initializer.toJson))] := by
    rfl
  unfold ofJson?
  rw [fields]
  simp only [parameters, definitions, DependencySet.ofJson?_toJson, initializers,
    Option.bind_eq_bind, Option.bind_some, OrderedMap.ofList_entries]
  rfl

/-! ## The manifest -/

theorem isPlain_digestsToJson (digests : OrderedMap Path String) :
    (DependencySet.digestsToJson digests).isPlain = true :=
  Value.membersArePlain_map _ (fun _ => rfl)

theorem isPlain_dependencies (set : DependencySet) : set.toJson.isPlain = true := by
  have artifacts : Value.arePlain (set.artifacts.map (fun path => .text path.text)) = true :=
    Value.arePlain_map _ (fun _ => rfl)
  simp only [DependencySet.toJson, Value.isPlain, Value.membersArePlain, isPlain_digestsToJson,
    artifacts, Bool.and_self]

theorem isPlain_namedToJson (named : String × Definition) :
    (namedToJson named).isPlain = true := by
  have tags : Value.membersArePlain (named.2.tags.entries.map (fun entry =>
      (entry.1, .list (entry.2.map .text)))) = true :=
    Value.membersArePlain_map _ (fun entry => Value.arePlain_map entry.2 (fun _ => rfl))
  simp only [namedToJson, Definition.toJson, Value.isPlain, Value.membersArePlain, tags,
    Bool.and_self]

theorem isPlain_toJson (container : Container) : container.toJson.isPlain = true := by
  have parameters : Value.membersArePlain (container.parameters.entries.map (fun entry =>
      (entry.1, .text entry.2))) = true :=
    Value.membersArePlain_map _ (fun _ => rfl)
  have definitions : Value.arePlain (container.definitions.map namedToJson) = true :=
    Value.arePlain_map _ isPlain_namedToJson
  have initializers : Value.arePlain (container.initializers.map Initializer.toJson) = true :=
    Value.arePlain_map _ (fun _ => rfl)
  simp only [toJson, Value.isPlain, Value.membersArePlain, parameters, definitions,
    isPlain_dependencies, initializers, Bool.and_self]

/-- The manifest of a container describes that container. -/
theorem ofManifest_manifest (container : Container) :
    ofManifest container.manifest = .ok container := by
  unfold ofManifest manifest
  rw [Json.parse?_indentedText container.isPlain_toJson, Option.bind_some, ofJson?_toJson]

/-! ## Manifests in files -/

theorem manifest_injective {left right : Container} (same : left.manifest = right.manifest) :
    left = right := by
  have readBack := ofManifest_manifest left
  rw [same, ofManifest_manifest right] at readBack
  exact (Except.ok.inj readBack).symm

theorem manifest_toUTF8_injective {left right : Container}
    (same : left.manifest.toUTF8 = right.manifest.toUTF8) : left = right := by
  rw [String.toUTF8_eq_toByteArray, String.toUTF8_eq_toByteArray] at same
  exact manifest_injective (String.toByteArray_inj.mp same)

theorem load_of_entryAt {files : FileSystem} {path : Path} {key : FileKey} {container : Container}
    (found : files.entryAt path = .ok (key, .file container.manifest.toUTF8)) :
    load files path = .ok (some container) := by
  have isText := FileSystem.readText_of_read (FileSystem.read_eq_ok_iff.mpr ⟨key, found⟩)
  unfold load
  rw [isText]
  dsimp only
  rw [ofManifest_manifest]
  rfl

theorem entryAt_of_load {files : FileSystem} {path : Path} {container : Container}
    (loaded : load files path = .ok (some container)) :
    ∃ key entry, files.entryAt path = .ok (key, entry) := by
  unfold load at loaded
  split at loaded
  · rename_i text isText
    obtain ⟨content, isRead⟩ := FileSystem.isFile_iff.mp (FileSystem.isFile_of_readText isText)
    obtain ⟨key, found⟩ := FileSystem.read_eq_ok_iff.mp isRead
    exact ⟨key, _, found⟩
  · cases loaded
  · cases loaded

/-! ## Nothing is lost -/

/-- A manifest describes its container and no other one, and a container that was saved to
a file is loaded from there, in every field as it was. -/
theorem manifest_loses_nothing (container : Container) :
    (∀ read, ofManifest container.manifest = .ok read ↔ read = container) ∧
      ∀ path files after, container.save path files = (.ok (), after) →
        load after path = .ok (some container) := by
  constructor
  · intro read
    rw [ofManifest_manifest]
    exact ⟨fun isRead => (Except.ok.inj isRead).symm, fun same => by rw [same]⟩
  · intro path files after saved
    obtain ⟨key, isThere, _⟩ := FileSystem.entryAt_write (Sequencing.run_restate_eq_ok.mp saved)
    exact load_of_entryAt isThere

/-- Texts with quotes, backslashes, control characters and characters outside ASCII, and
paths with silent segments. -/
def awkward : Container where
  parameters := .ofList [("\"\\\u0000", "\u0008\u001f\u007f"), ("", "\u2028ä𝄞")]
  definitions := [
    ("b\"", ⟨"G\\Ä\n", .ofList [("z", []), ("a\\", ["\t", ""])]⟩),
    ("a", .empty)]
  dependencies := {
    files := .ofList [(⟨"src//ü.php"⟩, "\r")]
    scanned := .ofList [(⟨"./src/ü.php"⟩, "ff")]
    artifacts := [⟨"p/b.php"⟩, ⟨"p//./a.php"⟩]
    fingerprint := "\\u0041" }
  initializers := [⟨⟨"p//"⟩, "G\\"⟩, ⟨⟨"p"⟩, "\""⟩]

/-- The directory `p` and nothing else. -/
def oneDirectory : FileSystem := ⟨.ofList [(["p"], .directory)], []⟩

set_option maxRecDepth 100000 in
theorem awkward_container_survives :
    ofManifest awkward.manifest = .ok awkward ∧
      load (awkward.save ⟨"p//container.json"⟩ oneDirectory).2 ⟨"p//container.json"⟩ =
        .ok (some awkward) := by
  have saved : awkward.save ⟨"p//container.json"⟩ oneDirectory =
      (.ok (), (awkward.save ⟨"p//container.json"⟩ oneDirectory).2) :=
    Prod.ext (by decide +kernel) rfl
  obtain ⟨reads, loads⟩ := manifest_loses_nothing awkward
  exact ⟨(reads awkward).mpr rfl, loads _ _ _ saved⟩

end Container

end FactoryProxy
