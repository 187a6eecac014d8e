import Keyfile.File.Tree
import Keyfile.LoadError
import Keyfile.Value.Error

/-!
# Failures

Everything that can end an operation. Refusals are failures of the configuration itself, like most
errors of loading; the others come from files, texts and values.
-/

namespace Keyfile

/-- Why a configuration is refused. -/
inductive Refusal
  | providerMissing (name : Text)
  | providerUnfit (name : Text)
  /-- Neither the provider nor its cache gave a text. -/
  | nothingProvided (provider : Text)
  | destinationMissing
  | tagMalformed (argument : Text)
  deriving DecidableEq, Repr

def Refusal.message : Refusal → Text
  | providerMissing name => "Config provider type not found: ".toList ++ name
  | providerUnfit name => name ++ " does not implement get_config()".toList
  | nothingProvided provider => "No configuration available from ".toList ++ provider
  | destinationMissing => "No configuration path to save to.".toList
  | tagMalformed argument => "Expected TAG=TEXT, got: ".toList ++ Text.quoted argument

/-- Why an operation ended without a result. -/
inductive Failure
  | load (error : LoadError)
  | refusal (cause : Refusal)
  | file (error : FileError)
  | value (error : ValueError)
  | undecodable
  /-- A text has no bytes in the encoding. -/
  | unencodable
  /-- The user whose home directory is asked for is unknown. -/
  | homeUnknown
  /-- The address of a network interface is malformed. -/
  | addressMalformed
  /-- The netmask of a network interface is malformed. -/
  | netmaskMalformed
  /-- The netmask of a network interface has a slash in it. -/
  | netmaskDivided
  /-- A name stands for no level of severity. -/
  | levelUnknown (parameter name : Text)
  /-- A text stands for no way to open a file. -/
  | modeInvalid
  /-- A place of a command line holds no word. -/
  | wordMissing
  /-- The user of a configuration failed while using it. -/
  | interrupted
  deriving DecidableEq, Repr

def FileError.message : FileError → Text
  | notFound => "No such file or directory".toList
  | alreadyExists => "File exists".toList
  | isDirectory => "Is a directory".toList
  | notDirectory => "Not a directory".toList
  | notEmpty => "Directory not empty".toList
  | busy => "Device or resource busy".toList
  | nameInvalid => "Invalid name".toList
  | nameTooLong => "File name too long".toList
  | tooDeep => "Too many missing directories".toList

def Failure.message : Failure → Text
  | load error => error.message
  | refusal cause => cause.message
  | file error => error.message
  | value error => error.message
  | undecodable => "invalid bytes".toList
  | unencodable => "character without bytes".toList
  | homeUnknown => "unknown home directory".toList
  | addressMalformed => "malformed address".toList
  | netmaskMalformed => "malformed netmask".toList
  | netmaskDivided => "netmask with a slash".toList
  | levelUnknown parameter name =>
    "Unknown logging level name for ".toList ++ parameter ++ [':', ' '] ++ name
  | modeInvalid => "invalid mode".toList
  | wordMissing => "missing word".toList
  | interrupted => "interrupted".toList

/-- Whether a failure is one of the files as they stand. A malformed name and too great a depth are
failures whatever the files are. -/
def Failure.isOfFiles : Failure → Bool
  | file .nameInvalid | file .tooDeep => false
  | file _ => true
  | _ => false

/-- Whether a failure is one of the configuration. Too deep a nesting of expansions is none: the
limit is not the configuration's own. -/
def Failure.isRefusal : Failure → Bool
  | load (.expansion .tooDeep) => false
  | load _ | refusal _ => true
  | _ => false

end Keyfile
