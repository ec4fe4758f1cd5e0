import RoutePolicy.Prefix.Basic
import RoutePolicy.Text.Blank

/-!
# The text form of prefixes

A prefix is written `a.b.c.d/length`.  Reading allows blanks around both parts, a plus sign and
leading zeros in the length, and host bits, which are cleared.  What makes a text unreadable is a
`Prefix.Cause`; of several causes the one listed first in the type is reported.
-/

set_option autoImplicit false

namespace RoutePolicy

namespace Prefix

/-- Why a text is not a prefix. -/
inductive Cause where
  | noLength (text : String)
  | badAddress (text : String)
  | badLength (text : String) (cause : Decimal.Cause)
  | tooLong (length : Nat)
  deriving DecidableEq, Repr

/-- The wording of a cause. -/
def Cause.message : Cause → String
  | .noLength text => "prefix '" ++ text ++ "' is missing a '/length' suffix"
  | .badAddress text =>
    "invalid prefix address in '" ++ text ++ "': invalid IPv4 address syntax"
  | .badLength text cause => "invalid prefix length in '" ++ text ++ "': " ++ cause.message
  | .tooLong length => "prefix length " ++ Decimal.text length ++ " exceeds 32"

/-- The prefix of a given length around an address, or the reason why there is none. -/
def ofAddress (a : Address) (length : UInt8) : Except Cause Prefix :=
  match ofAddress? a length with
  | some p => .ok p
  | none => .error (.tooLong length.toNat)

/-- Reads the text form. -/
def parse (text : String) : Except Cause Prefix :=
  match splitFirst '/' text.toList with
  | none => .error (.noLength text)
  | some (address, length) =>
    match Address.read? (trimBlank address) with
    | none => .error (.badAddress text)
    | some a =>
      match Decimal.read 255 (trimBlank length) with
      | .error cause => .error (.badLength text cause)
      | .ok n => ofAddress a (UInt8.ofNat n)

/-- The text form. -/
def text (p : Prefix) : String := p.network.text ++ "/" ++ Decimal.text p.length.toNat

end Prefix

end RoutePolicy
