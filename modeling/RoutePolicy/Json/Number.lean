import RoutePolicy.Json.Basic
import RoutePolicy.Text.Decimal
import RoutePolicy.Text.Magnitude

/-!
# Numbers in JSON

A number is digits with or without a fraction and an exponent.  It may not be too large: a number is
taken as a significand of 64 bits times a power of ten, each rounded to double precision, and their
product has to be finite.

* `Json.number` — reads a number.
-/

set_option autoImplicit false

namespace RoutePolicy

namespace Json

/-- The digits at the start of a text, and the rest. -/
def spanDigits (cs : List Char) : List Char × List Char :=
  cs.span fun c => (Decimal.digit? c).isSome

/-- The number of digits that are known to be digits. -/
def digitsValue (cs : List Char) : Nat := cs.foldl (fun n c => n * 10 + (c.toNat - '0'.toNat)) 0

/-- The fraction of a number: its digits, and the rest. -/
def fraction : List Char → Option (List Char × List Char)
  | '.' :: rest =>
    match spanDigits rest with
    | ([], _) => none
    | (ds, rest) => some (ds, rest)
  | cs => some ([], cs)

/-- The digits of an exponent after its sign. -/
def exponentDigits (cs : List Char) : Option (Nat × List Char) :=
  match spanDigits cs with
  | ([], _) => none
  | (ds, rest) => some (digitsValue ds, rest)

/-- The exponent of a number, when there is one, and the rest. -/
def exponent : List Char → Option (Option Int × List Char)
  | c :: rest =>
    if c = 'e' || c = 'E' then
      match rest with
      | '-' :: rest => (exponentDigits rest).map fun e => (some (-(e.1 : Int)), e.2)
      | '+' :: rest => (exponentDigits rest).map fun e => (some (e.1 : Int), e.2)
      | rest => (exponentDigits rest).map fun e => (some (e.1 : Int), e.2)
    else some (none, c :: rest)
  | [] => some (none, [])

/-- The significand after further digits, as many as 64 bits can hold, and the digits that are
left. -/
def extend (significand : Nat) : List Char → Nat × List Char
  | [] => (significand, [])
  | c :: rest =>
    let next := significand * 10 + (c.toNat - '0'.toNat)
    if next < 0x10000000000000000 then extend next rest else (significand, c :: rest)

/-- Whether a number is too large: its significand has the first digits, and those of the whole part
that are left count as powers of ten. -/
def isTooLarge (whole frac : List Char) (power : Int) : Bool :=
  let (significand, left) := extend 0 whole
  let (significand, unread) := extend significand frac
  productExceedsDouble significand (power + left.length - (frac.length - unread.length : Nat))

/-- Reads a number without its sign.  A number with a fraction or an exponent is a decimal, and so
is a negative zero. -/
def number (negative : Bool) (cs : List Char) : Option (Json × List Char) := do
  let (whole, rest) ← match spanDigits cs with
    | ([], _) => none
    | (ds, rest) => if ds.length ≠ 1 ∧ ds.head? = some '0' then none else some (ds, rest)
  let (frac, rest) ← fraction rest
  let (power, rest') ← exponent rest
  let text := String.ofList (cs.take (cs.length - rest'.length))
  let mantissa := digitsValue (whole ++ frac)
  if isTooLarge whole frac (power.getD 0) then none
  else if frac.isEmpty && power.isNone && !(negative && mantissa == 0) then
    some (.int (if negative then -(mantissa : Int) else mantissa), rest')
  else some (.decimal (if negative then "-" ++ text else text), rest')

end Json

end RoutePolicy
