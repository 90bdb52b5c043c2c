import FactoryProxy.ClassIndex.Basic
import FactoryProxy.FileSystem.SourceFiles
import FactoryProxy.Reflection.Declarations

/-!
Contract: the index of the source files below directories.

Owns: reading the files and indexing their declarations in file order.
-/

namespace FactoryProxy.ClassIndex

def declarationsAt (files : FileSystem) (file : Path) :
    Except Failure (List ClassDeclaration) :=
  ((files.readText file).mapError (Failure.unreadableSource file)).map
    (Reflection.declarationsIn file)

/-- The index of the source files below directories. -/
def build (files : FileSystem) (roots : List Path) (exclude : List String) :
    Except Failure ClassIndex := do
  let found ← SourceFiles.find files roots exclude
  let declared ← found.mapM (declarationsAt files)
  let index ← ofClasses declared.flatten
  return { index with files := found }

end FactoryProxy.ClassIndex
