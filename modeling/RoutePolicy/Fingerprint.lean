import RoutePolicy.Codec.Policy
import RoutePolicy.Digest.Sha256
import RoutePolicy.Json.Printer
import RoutePolicy.Table

/-!
# Fingerprints of tables

The fingerprint of a table is the SHA-256 of its `commitment`: for each policy in the order of the
places, its name, a zero byte and its data as compact JSON.  Links are not part of that data.  The
names of a table determine the link of every reference to a defined policy.
-/

set_option autoImplicit false

namespace RoutePolicy

/-- The bytes of a text in UTF-8. -/
def utf8 (s : String) : List UInt8 := s.toList.flatMap String.utf8EncodeChar

/-- The bytes that stand for a policy. -/
def Policy.commitment (p : Policy) : List UInt8 := utf8 p.name ++ 0 :: utf8 p.toJson.compact

namespace Table

/-- The bytes that stand for a table. -/
def commitment (t : Table) : List UInt8 := t.policies.flatMap Policy.commitment

/-- The digest of the table in hexadecimal. -/
def fingerprint (t : Table) : String := Hexadecimal.ofBytes (Sha256.digest t.commitment)

/-- Whether the table has a fingerprint. -/
def hasFingerprint (t : Table) (expected : String) : Bool := t.fingerprint == expected

end Table

end RoutePolicy
