import FactoryProxy.Command.Run

/-!
Contract: what a command looks at in the file system.

A caller that copies only part of a real file system asks for the places, copies
them and asks again, because settings and manifests name further places. Three
times are enough: the settings file, then the directories and the manifest in it,
then the files that the manifest names.

Owns: the places of a request.
-/

namespace FactoryProxy.Command

def settingsPlaces (files : FileSystem) (source : Source) : List Path :=
  match source.explicit with
  | some path => [path]
  | none => (files.currentPath.ancestors LoadedSettings.searchLimit).map
      (fun directory => directory.child Settings.fileName)

def containerPlaces (container : Container) : List Path :=
  container.dependencies.files.keys ++ container.dependencies.scanned.keys
    ++ container.dependencies.artifacts ++ container.initializers.map Initializer.directory

/-- The directories of the settings and the places that their manifest names. -/
def resolvedPlaces (files : FileSystem) (settings : ResolvedSettings) : List Path :=
  let named :=
    match Container.load files (manifestPath settings) with
    | .ok (some container) => containerPlaces container
    | _ => []
  settings.proxyDirectory :: settings.sourceDirectories ++ named

/-- The places of settings from a source, as far as they are known by now. -/
def sourcePlaces (files : FileSystem) (source : Source) : List Path :=
  let further :=
    match settingsOf source files with
    | (.ok (_, settings), _) => resolvedPlaces files settings
    | (.error _, _) => []
  settingsPlaces files source ++ further

/-- The places of a request, as far as they are known by now. -/
def places (files : FileSystem) : Request → List Path
  | .generate source _ => sourcePlaces files source
  | .resolve source _ => sourcePlaces files source
  | .index source => sourcePlaces files source
  | .init _ => [⟨Settings.fileName⟩]

end FactoryProxy.Command
