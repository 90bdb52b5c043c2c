/-!
Contract: the ways in which an access to the file system fails.

Owns: `IoFailure` and the text of each failure with the number of the system's
error, where there is one.
-/

namespace FactoryProxy

inductive IoFailure where
  | notFound
  | alreadyExists
  | notADirectory
  | isADirectory
  | nameTooLong
  | tooManyLinks
  | zeroInPath
  | notText
deriving DecidableEq, Repr

namespace IoFailure

def message : IoFailure → String
  | notFound => "No such file or directory (os error 2)"
  | alreadyExists => "File exists (os error 17)"
  | notADirectory => "Not a directory (os error 20)"
  | isADirectory => "Is a directory (os error 21)"
  | nameTooLong => "File name too long (os error 36)"
  | tooManyLinks => "Too many levels of symbolic links (os error 40)"
  | zeroInPath => "file name contained an unexpected NUL byte"
  | notText => "stream did not contain valid UTF-8"

end IoFailure

end FactoryProxy
