import FactoryProxy.Command.Arguments
import FactoryProxy.Command.Output
import FactoryProxy.Container.Manifest
import FactoryProxy.Generation
import FactoryProxy.Loading.ProxyLoader
import FactoryProxy.Settings.Loaded

/-!
Contract: what the commands do.

A command works on a file system value and yields its output together with the
file system after it.

Owns: the four commands and the run of the whole program.
Does not own: the real file system.
-/

namespace FactoryProxy.Command

open FileSystem (Action)

/-- A command that may end early with the output of its failure. -/
abbrev Task (α : Type) := Action Output α

namespace Task

/-- Goes on with a result, or reports the failure below a context. -/
def check {α : Type} (context : Option String) (result : Except Failure α) : Task α :=
  Action.inspect (fun _ => result.mapError (Output.failure context))

def look {α : Type} (context : Option String)
    (question : FileSystem → Except Failure α) : Task α :=
  Action.inspect (fun files => (question files).mapError (Output.failure context))

end Task

/-! ## Settings -/

/-- The parameters and the settings of a run. -/
def settingsOf (source : Source) : Task (Settings.Parameters × ResolvedSettings) := do
  let loaded ← Task.look (some "Failed to load configuration")
    (fun files => LoadedSettings.find files source.explicit)
  let parameters := loaded.parameters source.overrides
  let resolved ← Task.check (some ("Invalid configuration in " ++ loaded.path.text))
    (loaded.resolve parameters [source.contribution])
  return (parameters, resolved)

/-- The manifest next to the generated files. -/
def manifestPath (settings : ResolvedSettings) : Path :=
  settings.proxyDirectory.child Container.manifestName

/-! ## Generate -/

/-- There is a manifest and it is still good. -/
def isUpToDate (settings : ResolvedSettings) : Task Bool := do
  match ← Task.look none (fun files => Container.load files (manifestPath settings)) with
  | none => return false
  | some previous =>
    Task.look none (fun files => Generation.isFresh files settings previous)

/-- A run with a new container whose manifest is saved. -/
def generateAll (parameters : Settings.Parameters) (settings : ResolvedSettings) :
    Task Generation.Report := do
  let (container, result) ←
    (Generation.generate settings (Container.withParameters parameters) :
      StateM FileSystem (Container × Except Failure Generation.Report))
  let report ← Task.check (some "Factory generation failed") result
  (container.save (manifestPath settings)).restate
    (Output.failure (some "Failed to write container manifest"))
  return report

def factoryLine (factory : PersistedArtifact) : String :=
  factory.className.getD "" ++ " -> " ++ factory.qualifiedName

def summaryLine (settings : ResolvedSettings) (report : Generation.Report) : String :=
  "Generated " ++ toString report.definitions ++ " factories from "
    ++ toString report.indexedClasses ++ " classes in " ++ toString report.scannedFiles
    ++ " files (" ++ settings.proxyDirectory.text ++ ")"

def runGenerate (source : Source) (force : Bool) : Task Output := do
  let (parameters, settings) ← settingsOf source
  let current ← if force then pure false else isUpToDate settings
  if current then
    return .success ["Factories in " ++ settings.proxyDirectory.text ++ " are up to date"]
  else
    let report ← generateAll parameters settings
    return .success (report.factories.map factoryLine ++ [summaryLine settings report])

/-! ## Resolve -/

/-- The host as the container in the proxy directory sets it up, or with a loader
of that directory if there is no container. -/
def hostFor (settings : ResolvedSettings) : Task Autoloader := do
  match ← Task.look none (fun files => Container.load files (manifestPath settings)) with
  | some container =>
    let (host, result) := container.start .empty
    Task.check none result
    return host
  | none =>
    Task.check none
      ((ProxyLoader.mk settings.proxyDirectory settings.proxyNamespace).register .empty)

def runResolve (source : Source) (typeName : String) : Task Output := do
  let (_, settings) ← settingsOf source
  let host ← hostFor settings
  let (_, loaded) ← Task.look none (fun files => host.load files typeName)
  match loaded with
  | some loaded => return .success [loaded.path.text]
  | none => return .negative ["unresolved"]

/-! ## Index -/

def kindWords (declared : ClassDeclaration) : String :=
  match declared.kind with
  | .classKind => if declared.isAbstract then "abstract class" else "class"
  | .interfaceKind => "interface"
  | .traitKind => "trait"
  | .enumKind => "enum"

/-- A declaration with a star if it gets a factory. -/
def indexLine (index : ClassIndex) (targets : TargetTypes) (declared : ClassDeclaration) :
    String :=
  let selected := index.isInstantiable declared && (targets.matchedBy index declared).isSome
  (if selected then "*" else " ") ++ " " ++ kindWords declared ++ " " ++ declared.name
    ++ " (" ++ declared.file.text ++ ":" ++ toString declared.line ++ ")"

def runIndex (source : Source) : Task Output := do
  let (_, settings) ← settingsOf source
  let index ← Task.look none (fun files =>
    ClassIndex.build files settings.sourceDirectories settings.exclude)
  let targets ← Task.check none (TargetTypes.resolve index settings.scanFor)
  return .success (index.toList.map (indexLine index targets))

/-! ## Init -/

def initialSettings : String :=
  Output.lines [
    "# autofactory configuration",
    "",
    "# Classes and interfaces whose instantiable subtypes get a factory",
    "scan_for = []",
    "",
    "# Directories indexed for candidate classes",
    "source_dirs = [\"%appDir%\"]",
    "",
    "proxy_namespace = \"AutoFactory\\\\Proxies\"",
    "proxy_dir = \"%appDir%/../temp/proxies\"",
    "",
    "exclude = [",
    "    \"**/tests/**\",",
    "]",
    "",
    "[parameters]"]

def runInit (force : Bool) : Task Output := do
  let path : Path := ⟨Settings.fileName⟩
  let present ← Action.inspect (fun files => .ok (files.pathExists path))
  if present && !force then
    throw (.error "Configuration file already exists. Use --force to overwrite." [])
  else
    (FileSystem.write path initialSettings.toUTF8).restate (fun cause =>
      .error ("Failed to write " ++ Settings.fileName) [cause.message])
    return .success ["Created " ++ Settings.fileName ++ " configuration file"]

/-! ## The program -/

def runRequest : Request → Task Output
  | .generate source force => runGenerate source force
  | .resolve source typeName => runResolve source typeName
  | .index source => runIndex source
  | .init force => runInit force

def usageText : String :=
  Output.lines [
    "Usage: autofactory [-v] generate [--force] | resolve TYPE | index | init [--force]",
    "Options of generate, resolve and index: --config FILE, --parameter KEY=VALUE,",
    "--scan-for TYPE, --source-dir DIR"]

def versionText : String :=
  Output.lines ["autofactory 0.1.0"]

/-- The output for arguments that make no command. -/
def stopped : Stop → Output
  | .usage => ⟨Output.usageCode, "", usageText⟩
  | .help => ⟨0, usageText, ""⟩
  | .version => ⟨0, versionText, ""⟩

/-- The program with its arguments and the settings file of its environment. -/
def run (environment : Option String) (arguments : List String) : StateM FileSystem Output :=
  match parse environment arguments with
  | .error stop => pure (stopped stop)
  | .ok request => fun files =>
    match runRequest request files with
    | (.ok output, after) => (output, after)
    | (.error output, after) => (output, after)

end FactoryProxy.Command
