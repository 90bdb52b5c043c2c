import FactoryProxy.Artifact.Name
import FactoryProxy.Failure
import FactoryProxy.Glob.Match

/-!
Contract: the source files below directories.

Owns: which files count, and the listing without repetitions in path order.
-/

namespace FactoryProxy.SourceFiles

/-- The patterns in order; the first broken one is the failure. -/
def compile (patterns : List String) : Except Failure (List (List Glob.Token)) :=
  patterns.mapM (fun pattern => (Glob.parse pattern).mapError (fun cause =>
    .configuration (.invalidPattern pattern cause)))

/-- The path leads to a file, has the extension of source files, and no pattern
excludes it. -/
def counts (files : FileSystem) (patterns : List (List Glob.Token)) (path : Path) : Bool :=
  files.isFile path
    && path.extension?.any (fun extension => Text.sameFolded extension Artifact.sourceExtension)
    && !patterns.any (fun pattern => Glob.matchesText pattern path.text.toList)

/-- A single dash stands for the standard input, which holds no files. -/
def isStandardInput (root : Path) : Bool :=
  root.same ⟨"-"⟩

def below (files : FileSystem) (root : Path) : Except Failure (List Path) :=
  if !files.isDirectory root then .error (.configuration (.missingDirectory root))
  else if isStandardInput root then .ok []
  else (files.filesBelow root).mapError (fun cause => .configuration (.brokenWalk cause))

/-- The source files below directories. Of equal paths the spelling below the
directory that comes first is listed. -/
def find (files : FileSystem) (roots : List Path) (exclude : List String) :
    Except Failure (List Path) := do
  let patterns ← compile exclude
  let found ← roots.mapM (below files)
  return (OrderedSet.ofList (found.flatten.filter (counts files patterns))).toList

end FactoryProxy.SourceFiles
