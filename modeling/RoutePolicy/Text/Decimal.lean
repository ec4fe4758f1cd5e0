/-!
# Decimal numerals

Unsigned numbers in text: an optional plus sign and one or more decimal digits, leading zeros
allowed.  The digits are read from the left, and the first thing that goes wrong is the cause of
the failure.

* `Decimal.digits` — the numeral of a number;
* `Decimal.read limit` — the number of a numeral that is at most `limit`.
-/

set_option autoImplicit false

namespace RoutePolicy

namespace Decimal

/-- Why a text is not a number in range. -/
inductive Cause where
  | empty
  | invalidDigit
  | tooLarge
  deriving DecidableEq, Repr

/-- The wording of a cause. -/
def Cause.message : Cause → String
  | .empty => "cannot parse integer from empty string"
  | .invalidDigit => "invalid digit found in string"
  | .tooLarge => "number too large to fit in target type"

/-- The value of a decimal digit. -/
def digit? (c : Char) : Option Nat :=
  if '0' ≤ c ∧ c ≤ '9' then some (c.toNat - '0'.toNat) else none

/-- Reads digits after a number that was read so far. -/
def readDigits (limit : Nat) : Nat → List Char → Except Cause Nat
  | acc, [] => .ok acc
  | acc, c :: rest =>
    match digit? c with
    | none => .error .invalidDigit
    | some d =>
      if limit < acc * 10 + d then .error .tooLarge else readDigits limit (acc * 10 + d) rest

/-- The number of a numeral, if it is at most `limit`. -/
def read (limit : Nat) : List Char → Except Cause Nat
  | [] => .error .empty
  | ['+'] => .error .invalidDigit
  | '+' :: rest => readDigits limit 0 rest
  | cs => readDigits limit 0 cs

/-- The numeral of a number: no sign, no leading zero. -/
def digits (n : Nat) : List Char := Nat.toDigits 10 n

end Decimal

/-- The numeral of a number, as text. -/
def Decimal.text (n : Nat) : String := String.ofList (Decimal.digits n)

end RoutePolicy
