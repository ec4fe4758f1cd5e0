import RoutePolicy.Ordered.SortedSet
import RoutePolicy.Text.Blank
import RoutePolicy.Text.Decimal
import RoutePolicy.Text.Split

/-!
# Communities

A community is a word of 32 bits, written `asn:value` with the upper and the lower half in
decimal.  Sets of communities ascend by number.
-/

set_option autoImplicit false

namespace RoutePolicy

/-- A community. -/
structure Community where
  number : UInt32
  deriving DecidableEq

namespace Community

instance : LT Community := ⟨fun a b => a.number < b.number⟩

instance : DecidableLT Community :=
  fun a b => inferInstanceAs (Decidable (a.number < b.number))

instance : KeyOrder Community where
  irrefl a := UInt32.lt_irrefl a.number
  trans := UInt32.lt_trans
  connected {a b} h h' := by
    have e : a.number = b.number := KeyOrder.connected h h'
    cases a; cases b; simp_all

/-- The community of an AS number and a value. -/
def ofHalves (asn value : UInt16) : Community := ⟨asn.toUInt32 <<< 16 ||| value.toUInt32⟩

/-- The upper half. -/
def asn (c : Community) : Nat := (c.number >>> 16).toNat

/-- The lower half. -/
def value (c : Community) : Nat := (c.number &&& 0xFFFF).toNat

/-- The text form. -/
def text (c : Community) : String := Decimal.text c.asn ++ ":" ++ Decimal.text c.value

/-- Reads one half. -/
def readHalf? (cs : List Char) : Option UInt16 :=
  match Decimal.read 65535 (trimBlank cs) with
  | .ok n => some (UInt16.ofNat n)
  | .error _ => none

/-- Reads the text form; blanks around either half, plus signs and leading zeros are allowed. -/
def parse? (text : String) : Option Community := do
  let (asn, value) ← splitFirst ':' text.toList
  let asn ← readHalf? asn
  let value ← readHalf? value
  return ofHalves asn value

end Community

/-- A set of communities in ascending order. -/
abbrev CommunitySet := SortedSet Community

end RoutePolicy
