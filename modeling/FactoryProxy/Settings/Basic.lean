import FactoryProxy.Artifact.Name
import FactoryProxy.Settings.Expansion
import FactoryProxy.Toml.Document

/-!
Contract: settings as they are written.

Every setting may be left out. Its key has two spellings, of which a document
uses at most one, and no other keys are allowed.

Owns: `Settings`, the defaults and the reading of a document.
-/

namespace FactoryProxy

/-- A single text or a list of texts. -/
inductive OneOrMany where
  | one (text : String)
  | many (texts : List String)
deriving DecidableEq, Repr

namespace OneOrMany

def toList : OneOrMany → List String
  | one text => [text]
  | many texts => texts

end OneOrMany

structure Settings where
  /-- Types whose subtypes get a factory. -/
  scanFor : Option OneOrMany
  sourceDirectories : Option OneOrMany
  proxyNamespace : String
  proxyDirectory : String
  /-- Patterns of files that are left out. -/
  exclude : List String
  parameters : Settings.Parameters
deriving DecidableEq, Repr

namespace Settings

def fileName : String := "autofactory.toml"

def defaultProxyDirectory : String := "%appDir%/../temp/proxies"

def default : Settings where
  scanFor := none
  sourceDirectories := none
  proxyNamespace := Artifact.defaultNamespace
  proxyDirectory := defaultProxyDirectory
  exclude := []
  parameters := ∅

/-! ## Reading a document -/

/-- The settings that a key may name. -/
inductive Key where
  | scanFor
  | sourceDirectories
  | proxyNamespace
  | proxyDirectory
  | exclude
  | parameters
deriving DecidableEq, Repr

namespace Key

def ofText? (key : String) : Option Key :=
  match key with
  | "scan_for" | "scanFor" => some scanFor
  | "source_dirs" | "sourceDirs" => some sourceDirectories
  | "proxy_namespace" | "proxyNamespace" => some proxyNamespace
  | "proxy_dir" | "proxyDir" => some proxyDirectory
  | "exclude" => some exclude
  | "parameters" => some parameters
  | _ => none

end Key

def textOf? : Toml.Value → Option String
  | .text text => some text
  | _ => none

def textsOf? : Toml.Value → Option (List String)
  | .list elements => elements.mapM textOf?
  | _ => none

def oneOrManyOf? : Toml.Value → Option OneOrMany
  | .text text => some (.one text)
  | value => (textsOf? value).map .many

/-- The parameter that holds a date or a time written in place of a table. -/
def momentParameter : String := "$__toml_private_datetime"

def parametersOf? : Toml.Value → Option Parameters
  | .moment normalForm => some (.ofList [(momentParameter, normalForm)])
  | .table entries =>
    (entries.mapM (fun entry => (textOf? entry.2).map (fun text => (entry.1, text)))).map
      OrderedMap.ofList
  | _ => none

/-- The settings with the value of a key set. -/
def set? (settings : Settings) (value : Toml.Value) : Key → Option Settings
  | .scanFor => (oneOrManyOf? value).map (fun texts => { settings with scanFor := some texts })
  | .sourceDirectories =>
    (oneOrManyOf? value).map (fun texts => { settings with sourceDirectories := some texts })
  | .proxyNamespace => (textOf? value).map (fun text => { settings with proxyNamespace := text })
  | .proxyDirectory => (textOf? value).map (fun text => { settings with proxyDirectory := text })
  | .exclude => (textsOf? value).map (fun texts => { settings with exclude := texts })
  | .parameters => (parametersOf? value).map (fun map => { settings with parameters := map })

/-- The settings with the entries of a table set, none of which may name a key
that is set already. -/
def setAll? (settings : Settings) (present : List Key) :
    List (String × Toml.Value) → Option Settings
  | [] => some settings
  | (name, value) :: rest => do
    let key ← Key.ofText? name
    if present.contains key then none
    else
      let changed ← settings.set? value key
      changed.setAll? (key :: present) rest

def ofText (text : String) : Except Failure Settings :=
  match (Toml.parse? text).bind (default.setAll? []) with
  | some settings => .ok settings
  | none => .error (.configuration (.malformedSettings fileName))

end Settings

end FactoryProxy
