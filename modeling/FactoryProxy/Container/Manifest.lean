import FactoryProxy.Container.Basic
import FactoryProxy.FileSystem.Change
import FactoryProxy.Json.Printer
import FactoryProxy.Json.Reader
import FactoryProxy.Json.Record

/-!
Contract: the manifest of a container.

The manifest is an indented JSON object. Maps are written in the order of their
keys. A manifest is read back field by field; generated files and the fingerprint
may be left out.

Owns: both directions and the file of a manifest.
-/

namespace FactoryProxy

open Json (Value)

/-! ## Writing -/

namespace DependencySet

def digestsToJson (digests : OrderedMap Path String) : Value :=
  .object (digests.entries.map (fun entry => (entry.1.text, .text entry.2)))

def toJson (set : DependencySet) : Value :=
  .object [
    ("files", digestsToJson set.files),
    ("scanned", digestsToJson set.scanned),
    ("artifacts", .list (set.artifacts.map (fun path => .text path.text))),
    ("fingerprint", .text set.fingerprint)]

end DependencySet

namespace Definition

def toJson (definition : Definition) : Value :=
  .object [
    ("implement", .text definition.implement),
    ("tags", .object (definition.tags.entries.map (fun entry =>
      (entry.1, .list (entry.2.map .text)))))]

end Definition

namespace Initializer

/-- The name of the one kind of step. -/
def kind : String := "register_proxy_loader"

def toJson (initializer : Initializer) : Value :=
  .object [
    ("kind", .text kind),
    ("dir", .text initializer.directory.text),
    ("namespace", .text initializer.namespaceName)]

end Initializer

namespace Container

def namedToJson (named : String × Definition) : Value :=
  .object [("name", .text named.1), ("definition", named.2.toJson)]

def toJson (container : Container) : Value :=
  .object [
    ("parameters", .object (container.parameters.entries.map (fun entry =>
      (entry.1, .text entry.2)))),
    ("definitions", .list (container.definitions.map namedToJson)),
    ("dependencies", container.dependencies.toJson),
    ("initializers", .list (container.initializers.map Initializer.toJson))]

def manifest (container : Container) : String :=
  container.toJson.indentedText

end Container

/-! ## Reading -/

namespace DependencySet

def digestsOfJson? (value : Value) : Option (OrderedMap Path String) :=
  (value.entriesOf? Value.text?).map (fun entries =>
    .ofList (entries.map (fun entry => (⟨entry.1⟩, entry.2))))

def ofJson? (value : Value) : Option DependencySet :=
  match value.record? ["files", "scanned", "artifacts", "fingerprint"] with
  | some [some files, some scanned, artifacts, fingerprint] => do
    let files ← digestsOfJson? files
    let scanned ← digestsOfJson? scanned
    let artifacts ← match artifacts with
      | some artifacts => artifacts.listOf? Value.text?
      | none => some []
    let fingerprint ← match fingerprint with
      | some fingerprint => fingerprint.text?
      | none => some ""
    return ⟨files, scanned, artifacts.map Path.mk, fingerprint⟩
  | _ => none

end DependencySet

namespace Definition

def ofJson? (value : Value) : Option Definition :=
  match value.record? ["implement", "tags"] with
  | some [some implement, some tags] => do
    let implement ← implement.text?
    let tags ← tags.entriesOf? (Value.listOf? Value.text?)
    return ⟨implement, .ofList tags⟩
  | _ => none

end Definition

namespace Initializer

/-- How deep values may be nested inside a step. -/
def depthLimit : Nat := 125

/-- Reads a step. All of it is checked, members that do not count included. -/
def ofJson? (value : Value) : Option Initializer :=
  if value.isSound && value.depth ≤ depthLimit then
    match value.record? ["kind", "dir", "namespace"] with
    | some [some written, some directory, some namespaceName] => do
      let written ← written.text?
      let directory ← directory.text?
      let namespaceName ← namespaceName.text?
      if written = kind then some ⟨⟨directory⟩, namespaceName⟩ else none
    | _ => none
  else none

end Initializer

namespace Container

def namedOfJson? (value : Value) : Option (String × Definition) :=
  match value.record? ["name", "definition"] with
  | some [some name, some definition] => do
    let name ← name.text?
    let definition ← Definition.ofJson? definition
    return (name, definition)
  | _ => none

def ofJson? (value : Value) : Option Container :=
  match value.record? ["parameters", "definitions", "dependencies", "initializers"] with
  | some [some parameters, some definitions, some dependencies, some initializers] => do
    let parameters ← parameters.entriesOf? Value.text?
    let definitions ← definitions.listOf? namedOfJson?
    let dependencies ← DependencySet.ofJson? dependencies
    let initializers ← initializers.listOf? Initializer.ofJson?
    return ⟨.ofList parameters, definitions, dependencies, initializers⟩
  | _ => none

def ofManifest (text : String) : Except Failure Container :=
  match (Json.parse? text).bind ofJson? with
  | some container => .ok container
  | none => .error .malformedManifest

/-! ## Files -/

/-- The name of the file next to the generated ones. -/
def manifestName : String := "container.json"

def save (container : Container) (path : Path) : FileSystem.Action Failure Unit :=
  (FileSystem.write path container.manifest.toUTF8).restate (.unwritableFile path)

/-- Reads a manifest; none if the file does not exist. -/
def load (files : FileSystem) (path : Path) : Except Failure (Option Container) :=
  match files.readText path with
  | .ok text => (ofManifest text).map some
  | .error .notFound => .ok none
  | .error failure => .error (.io failure)

end Container

end FactoryProxy
