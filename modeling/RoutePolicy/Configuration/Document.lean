import RoutePolicy.Codec.Configuration
import RoutePolicy.Failure
import RoutePolicy.Toml.Document

/-!
# Configurations in documents

A configuration is written in TOML.  Why a document cannot be read is not told apart.
-/

set_option autoImplicit false

namespace RoutePolicy

namespace Configuration

/-- The configuration of a document. -/
def ofToml? (text : String) : Option Configuration := (Toml.read? text).bind (ofJson? .toml)

/-- Reads the configuration of a document. -/
def read (text : String) : Except Failure Configuration :=
  match ofToml? text with
  | some c => .ok c
  | none => .error (.configuration .badDocument)

end Configuration

end RoutePolicy
