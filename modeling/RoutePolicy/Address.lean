import RoutePolicy.Text.Decimal
import RoutePolicy.Text.Split

/-!
# IPv4 addresses

An address is a word of 32 bits.  In text it is four decimal octets with dots between them; an
octet has no sign, no leading zero and at most the value 255.
-/

set_option autoImplicit false

namespace RoutePolicy

/-- An IPv4 address. -/
structure Address where
  bits : UInt32
  deriving DecidableEq

namespace Address

/-- The address `0.0.0.0`. -/
def unspecified : Address := ⟨0⟩

/-- The octet at a distance of `shift` bits from the lowest one. -/
def octet (a : Address) (shift : UInt32) : Nat := ((a.bits >>> shift) &&& 255).toNat

/-- The address with the given octets, highest first. -/
def ofOctets (a b c d : Nat) : Address :=
  ⟨UInt32.ofNat (((a * 256 + b) * 256 + c) * 256 + d)⟩

/-- The dotted form. -/
def text (a : Address) : String :=
  Decimal.text (a.octet 24) ++ "." ++ Decimal.text (a.octet 16) ++ "." ++ Decimal.text (a.octet 8)
    ++ "." ++ Decimal.text (a.octet 0)

/-- Reads an octet: `0`, or up to three digits without a leading zero. -/
def readOctet? : List Char → Option Nat
  | [] => none
  | ['0'] => some 0
  | '0' :: _ => none
  | cs =>
    match Decimal.readDigits 255 0 cs with
    | .ok n => some n
    | .error _ => none

/-- Reads the dotted form. -/
def read? (cs : List Char) : Option Address :=
  match splitAll '.' cs with
  | [a, b, c, d] => do
    let a ← readOctet? a
    let b ← readOctet? b
    let c ← readOctet? c
    let d ← readOctet? d
    return ofOctets a b c d
  | _ => none

end Address

end RoutePolicy
