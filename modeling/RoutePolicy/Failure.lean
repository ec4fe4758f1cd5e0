import RoutePolicy.Configuration.Convert
import RoutePolicy.Evaluation.Evaluate

/-!
# Failures

What can stop a computation, and how it is worded.

* `ConfigurationError` — input that cannot be read;
* `Failure` — every failure of the library.
-/

set_option autoImplicit false

namespace RoutePolicy

/-- Why a file cannot be read. -/
inductive FileCause where
  | missing
  | denied
  | notDirectory
  | directory
  | nameTooLong
  | notText
  deriving DecidableEq, Repr

/-- The wording of the cause. -/
def FileCause.message : FileCause → String
  | .missing => "No such file or directory (os error 2)"
  | .denied => "Permission denied (os error 13)"
  | .notDirectory => "Not a directory (os error 20)"
  | .directory => "Is a directory (os error 21)"
  | .nameTooLong => "File name too long (os error 36)"
  | .notText => "stream did not contain valid UTF-8"

/-- Input that cannot be read. -/
inductive ConfigurationError where
  | badPrefix (cause : Prefix.Cause)
  | badCommunity (text : String)
  | unknownProtocol (name : String)
  | unreadableFile (path : String) (cause : FileCause)
  | badDocument
  deriving DecidableEq, Repr

/-- What is wrong with the input. -/
def ConfigurationError.reason : ConfigurationError → String
  | .badPrefix cause => cause.message
  | .badCommunity text => "invalid community '" ++ text ++ "', expected 'asn:value'"
  | .unknownProtocol name => "unknown protocol '" ++ name ++ "'"
  | .unreadableFile path cause =>
    "failed to read configuration file '" ++ path ++ "': " ++ cause.message
  | .badDocument => "failed to parse configuration TOML:"

/-- What stops a computation. -/
inductive Failure where
  | malformed (policy : MalformedPolicy)
  | configuration (error : ConfigurationError)
  | definition (error : DefineError)
  | unknownPolicy (name : String)

/-- The wording of a failure. -/
def Failure.message : Failure → String
  | .malformed policy => policy.message
  | .configuration error => "configuration error: " ++ error.reason
  | .definition error => error.message
  | .unknownPolicy name => "unknown routing policy '" ++ name ++ "'"

namespace Prefix

/-- Reads a prefix that was given as text. -/
def read (text : String) : Except Failure Prefix :=
  (parse text).mapError fun cause => .configuration (.badPrefix cause)

end Prefix

namespace Community

/-- Reads a community that was given as text. -/
def read (text : String) : Except Failure Community :=
  match parse? text with
  | some c => .ok c
  | none => .error (.configuration (.badCommunity text))

end Community

namespace Protocol

/-- Reads a protocol that was given as text. -/
def read (text : String) : Except Failure Protocol :=
  (parse text).mapError fun name => .configuration (.unknownProtocol name)

end Protocol

end RoutePolicy
