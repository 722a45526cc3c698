import PlcWorkbench.Xml.Error

/-!
# Failures

Why an operation of the workbench fails, by cause, and the wording of each.
-/

namespace PlcWorkbench

/-- Why a file cannot be read or written. -/
inductive FileError where
  | notFound
  | notADirectory
  | isADirectory
  | nameTooLong
  | nulInName
  | notText
deriving DecidableEq, Repr

/-- A property value that is out of range, trimmed. -/
inductive PropertyError where
  | queueSize (value : String)
  | scanMode (value : String)
deriving DecidableEq, Repr

/-- A request that the modeling session refuses. -/
inductive SessionError where
  | unknownPackage (id : String)
  | stereotypeMissing (element moduleName stereotype : String)
  | unnamedPattern (path : String)
  | unregisteredPattern (pattern : String)
  | unboundPattern (pattern : String)
deriving DecidableEq, Repr

/-- A configuration that the pipelines cannot work with. -/
inductive ConfigError where
  | queueSize (size : Nat)
  | marker (c : Char)
  | emptyExtension
deriving DecidableEq, Repr

/-- Why an operation fails. A document that was read from a file is reported with the file's
path. -/
inductive Failure where
  | containerNotFound (container : String)
  | targetPackage (candidates : List String)
  | invalidIdentifier (id : String)
  | invalidProperty (cause : PropertyError)
  | xml (path : Option String) (cause : Xml.Error)
  | session (cause : SessionError)
  | config (cause : ConfigError)
  | file (cause : FileError)
  | json
  | yaml
deriving DecidableEq, Repr

/-- The smallest event queue. -/
def minQueueSize : Nat := 1

/-- The largest event queue. -/
def maxQueueSize : Nat := 8

/-- The wording of a file error. -/
def FileError.message : FileError → String
  | .notFound => "No such file or directory (os error 2)"
  | .notADirectory => "Not a directory (os error 20)"
  | .isADirectory => "Is a directory (os error 21)"
  | .nameTooLong => "File name too long (os error 36)"
  | .nulInName => "file name contained an unexpected NUL byte"
  | .notText => "stream did not contain valid UTF-8"

/-- The property that a property error is about. -/
def PropertyError.key : PropertyError → String
  | .queueSize _ => "eventQueueSize"
  | .scanMode _ => "transitionScanMode"

/-- What is wrong with a property value. -/
def PropertyError.reason : PropertyError → String
  | .queueSize value =>
    "'" ++ value ++ "' is not between " ++ toString minQueueSize ++ " and " ++ toString maxQueueSize
      ++ " inclusive"
  | .scanMode value => "undefined transition scan mode '" ++ value ++ "'"

/-- The wording of a session error. -/
def SessionError.message : SessionError → String
  | .unknownPackage id => "Unknown package: " ++ id
  | .stereotypeMissing element moduleName stereotype =>
    "Element " ++ element ++ " has no " ++ moduleName ++ "::" ++ stereotype ++ " stereotype"
  | .unnamedPattern path => "Bad pattern path: " ++ path
  | .unregisteredPattern pattern => "Pattern '" ++ pattern ++ "' is not in the catalog"
  | .unboundPattern pattern => "Pattern '" ++ pattern ++ "' has no target package bound"

/-- The wording of a configuration error. -/
def ConfigError.message : ConfigError → String
  | .queueSize size =>
    "eventQueueSize " ++ toString size ++ " is outside " ++ toString minQueueSize ++ "..="
      ++ toString maxQueueSize
  | .marker c => "multiplicityMarker '" ++ c.toString ++ "' must not be a letter or digit"
  | .emptyExtension => "file extensions must not be empty"

/-- The wording of a failure. -/
def Failure.message : Failure → String
  | .containerNotFound container => "Target document has no '" ++ container ++ "' element"
  | .targetPackage candidates =>
    "Expected exactly one target package, found " ++ toString candidates.length ++ ": ["
      ++ ", ".intercalate candidates ++ "]"
  | .invalidIdentifier id => "String is not a valid add-on instruction name: '" ++ id ++ "'"
  | .invalidProperty cause => "Invalid '" ++ cause.key ++ "' property: " ++ cause.reason
  | .xml (some path) cause => "XML error: " ++ path ++ ": " ++ cause.message
  | .xml none cause => "XML error: " ++ cause.message
  | .session cause => "Host error: " ++ cause.message
  | .config cause => "Configuration error: " ++ cause.message
  | .file cause => "IO error: " ++ cause.message
  | .json => "JSON error"
  | .yaml => "YAML error"

end PlcWorkbench
