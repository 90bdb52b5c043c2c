import FactoryProxy.FileSystem.Walk
import FactoryProxy.Glob.Pattern

/-!
Contract: everything that can go wrong in the library, by cause.

Owns: `Failure`, the failures that are due to settings, and all their texts.
-/

namespace FactoryProxy

/-- Failures that the user mends in the settings or in the container. -/
inductive ConfigurationFailure where
  | invalidPattern (pattern : String) (cause : Glob.PatternFailure)
  | missingDirectory (directory : Path)
  | brokenWalk (cause : WalkFailure)
  | repeatedService (name : String)
  | circularParameter (name : String)
  | missingParameter (name : String)
  | missingOption (key : String)
  | unreadableSettings (path : Path) (cause : IoFailure)
  | malformedSettings (fileName : String)
  | absentSettings (fileName : String) (checked : Nat)
deriving DecidableEq, Repr

namespace ConfigurationFailure

def message : ConfigurationFailure → String
  | invalidPattern pattern cause =>
    "Invalid exclude pattern " ++ pattern ++ ": " ++ cause.message
  | missingDirectory directory => "Source directory " ++ directory.text ++ " does not exist"
  | brokenWalk cause => cause.message
  | repeatedService name => "Service '" ++ name ++ "' has already been added"
  | circularParameter name => "Circular reference detected for parameter %" ++ name ++ "%"
  | missingParameter name => "Missing parameter '" ++ name ++ "'"
  | missingOption key =>
    "The option '" ++ key ++ "' expects a string or an array of strings, none given"
  | unreadableSettings path cause => "Cannot read " ++ path.text ++ ": " ++ cause.message
  | malformedSettings fileName => "Failed to parse " ++ fileName
  | absentSettings fileName checked =>
    "No " ++ fileName ++ " found after checking " ++ toString checked ++ " directories"

end ConfigurationFailure

inductive Failure where
  | configuration (cause : ConfigurationFailure)
  /-- A scan target that no scanned file declares or refers to. -/
  | unknownTarget (name : String)
  | proxyDirectory (directory : Path) (cause : IoFailure)
  | unwritableFile (path : Path) (cause : IoFailure)
  /-- The same class is declared in two places. -/
  | ambiguousClass (className : String) (first second : Path)
  | unreadableSource (file : Path) (cause : IoFailure)
  /-- The host takes no resolvers. -/
  | unsupportedHooks
  | io (cause : IoFailure)
  /-- A text that is no manifest. -/
  | malformedManifest
deriving DecidableEq, Repr

namespace Failure

def message : Failure → String
  | configuration cause => "Configuration error: " ++ cause.message
  | unknownTarget name => "Class or interface " ++ name ++ " does not exist"
  | proxyDirectory directory _ => "Cannot create proxy directory " ++ directory.text
  | unwritableFile path _ => "Cannot create file " ++ path.text
  | ambiguousClass className first second =>
    "Ambiguous class " ++ className ++ " resolution; defined in " ++ first.text ++ " and in "
      ++ second.text
  | unreadableSource file cause =>
    "Parse error in " ++ file.text ++ ": Cannot read source: " ++ cause.message
  | unsupportedHooks => "Unsupported: type resolution hooks are not available"
  | io cause => cause.message
  | malformedManifest => "Malformed container manifest"

/-- The failure of the system behind a failure, told apart from its text. -/
def cause? : Failure → Option IoFailure
  | proxyDirectory _ cause => some cause
  | unwritableFile _ cause => some cause
  | _ => none

end Failure

end FactoryProxy
