import FactoryProxy.Artifact.Registry
import FactoryProxy.Container.Basic
import FactoryProxy.Loading.Autoloader

/-!
Contract: generated interfaces loaded from the proxy directory.

Owns: `ProxyLoader`, its resolver, and the start of a container.
-/

namespace FactoryProxy

/-- Loads the types of a namespace from the files of a directory. -/
structure ProxyLoader where
  directory : Path
  namespaceName : String
deriving DecidableEq, Repr

namespace ProxyLoader

/-- The identity under which the loader is registered. -/
def id (loader : ProxyLoader) : String :=
  "proxy:" ++ loader.directory.text ++ ":" ++ loader.namespaceName

/-- The file of a type of the namespace, if it exists. -/
def resolve (loader : ProxyLoader) (files : FileSystem) (typeName : String) : Option Path :=
  ((Artifact.baseName? loader.namespaceName typeName).map
    (Artifact.pathIn loader.directory)).filter files.isFile

def resolver (loader : ProxyLoader) : Resolver :=
  ⟨loader.id, loader.resolve⟩

def register (loader : ProxyLoader) (host : Autoloader) : Except Failure Autoloader :=
  (host.register loader.resolver).map Prod.fst

def isRegistered (loader : ProxyLoader) (host : Autoloader) : Bool :=
  host.isRegistered loader.id

end ProxyLoader

namespace Container

/-- Runs initializers in order up to the first failure. -/
def runInitializers (host : Autoloader) :
    List Initializer → Autoloader × Except Failure Unit
  | [] => (host, .ok ())
  | initializer :: rest =>
    match (ProxyLoader.mk initializer.directory initializer.namespaceName).register host with
    | .ok registered => runInitializers registered rest
    | .error failure => (host, .error failure)

def start (container : Container) (host : Autoloader) :
    Autoloader × Except Failure Unit :=
  runInitializers host container.initializers

end Container

end FactoryProxy
