import FactoryProxy.Digest.Sha256
import FactoryProxy.Json.Printer
import FactoryProxy.Path.Join
import FactoryProxy.Settings.Basic

/-!
Contract: settings for one run.

Directories are expanded and relative ones stand below the directory of the
settings file; contributed directories and targets follow the configured ones.

Owns: `ResolvedSettings`, the resolution and the fingerprint.
-/

namespace FactoryProxy

structure ResolvedSettings where
  scanFor : List String
  sourceDirectories : List Path
  proxyNamespace : String
  proxyDirectory : Path
  exclude : List String
deriving DecidableEq, Repr

/-- Targets and directories that are added to the configured ones. -/
structure Contribution where
  scanFor : List String
  sourceDirectories : List String
deriving DecidableEq, Repr

namespace ResolvedSettings

/-- The settings as an object whose members have a fixed order. -/
def toJson (settings : ResolvedSettings) : Json.Value :=
  .object [
    ("scan_for", .list (settings.scanFor.map .text)),
    ("source_dirs", .list (settings.sourceDirectories.map (fun path => .text path.text))),
    ("proxy_namespace", .text settings.proxyNamespace),
    ("proxy_dir", .text settings.proxyDirectory.text),
    ("exclude", .list (settings.exclude.map .text))]

/-- What tells settings apart in a manifest. -/
def fingerprint (settings : ResolvedSettings) : String :=
  Digest.ofText settings.toJson.compactText

end ResolvedSettings

namespace Settings

/-- A path below a directory unless it is absolute. -/
def anchor (base : Path) (text : String) : Path :=
  base.join ⟨text⟩

/-- The texts of an option that has to be given. -/
def require (key : String) (option : Option OneOrMany) : Except Failure (List String) :=
  match option with
  | some texts => .ok texts.toList
  | none => .error (.configuration (.missingOption key))

/-- The settings for a run below `base`. -/
def resolve (settings : Settings) (base : Path) (parameters : Parameters)
    (contributions : List Contribution) : Except Failure ResolvedSettings := do
  let proxyDirectory ← expand parameters settings.proxyDirectory
  let directories ← require "source_dirs" settings.sourceDirectories
  let sourceDirectories ←
    (directories ++ contributions.flatMap Contribution.sourceDirectories).mapM
      (fun directory => (expand parameters directory).map (anchor base))
  let targets ← require "scan_for" settings.scanFor
  return {
    scanFor := targets ++ contributions.flatMap Contribution.scanFor
    sourceDirectories := sourceDirectories
    proxyNamespace := Name.trimSeparators (Text.trimBlank settings.proxyNamespace)
    proxyDirectory := anchor base proxyDirectory
    exclude := settings.exclude }

end Settings

end FactoryProxy
