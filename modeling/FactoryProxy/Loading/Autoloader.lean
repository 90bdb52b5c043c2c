import FactoryProxy.Failure
import FactoryProxy.Name.Basic

/-!
Contract: types loaded when they are first asked for.

A host keeps resolvers in the order of their registration, each identity once,
and the types loaded so far. A loaded type is never loaded again.

Owns: `Resolver`, `Autoloader`, registration and loading.
-/

namespace FactoryProxy

/-- Finds the file of a type, or leaves the type to others. -/
structure Resolver where
  id : String
  resolve : FileSystem → String → Option Path

/-- A type with the file it was loaded from and the text of that file. -/
structure LoadedType where
  name : String
  path : Path
  source : String
deriving DecidableEq, Repr

/-- `defined` lists the loaded types under their keys. -/
structure Autoloader where
  takesResolvers : Bool
  resolvers : List Resolver
  defined : List (String × LoadedType)

namespace Autoloader

/-- A host that takes resolvers and has none. -/
def empty : Autoloader := ⟨true, [], []⟩

/-- A host that takes no resolvers. -/
def withoutHooks : Autoloader := ⟨false, [], []⟩

def isRegistered (host : Autoloader) (id : String) : Bool :=
  host.resolvers.any (fun resolver => resolver.id == id)

/-- The host with a resolver added and whether it is new. -/
def register (host : Autoloader) (resolver : Resolver) : Except Failure (Autoloader × Bool) :=
  if !host.takesResolvers then .error .unsupportedHooks
  else if host.isRegistered resolver.id then .ok (host, false)
  else .ok ({ host with resolvers := host.resolvers ++ [resolver] }, true)

/-- What identifies a type among the spellings of its name. -/
def typeKey (name : String) : String :=
  Text.fold (Name.trimLeading name)

def loaded? (host : Autoloader) (name : String) : Option LoadedType :=
  host.defined.lookup (typeKey name)

def isDefined (host : Autoloader) (name : String) : Bool :=
  (host.loaded? name).isSome

/-- The resolvers that are asked for a type, the one that answers last. -/
def asked (host : Autoloader) (files : FileSystem) (name : String) : List Resolver :=
  if host.isDefined name then []
  else
    let silent := host.resolvers.takeWhile (fun resolver => (resolver.resolve files name).isNone)
    silent ++ (host.resolvers.drop silent.length).take 1

/-- Loads a type, from the file that the first answering resolver gives. -/
def load (host : Autoloader) (files : FileSystem) (name : String) :
    Except Failure (Autoloader × Option LoadedType) :=
  match host.loaded? name with
  | some loaded => .ok (host, some loaded)
  | none =>
    match host.resolvers.findSome? (fun resolver => resolver.resolve files name) with
    | none => .ok (host, none)
    | some path =>
      match files.readText path with
      | .error cause => .error (.io cause)
      | .ok source =>
        let loaded : LoadedType := ⟨Name.trimLeading name, path, source⟩
        .ok ({ host with defined := (typeKey name, loaded) :: host.defined }, some loaded)

end Autoloader

end FactoryProxy
