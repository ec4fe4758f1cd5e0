/-!
# Numbers beyond every double

Whether a number is too large for double precision, that is, whether it would be rounded to
infinity: the bound is half a unit in the last place above the largest double.

* `exceedsDouble` — for a decimal number that is rounded once;
* `productExceedsDouble` — for a product whose factors are rounded first.
-/

set_option autoImplicit false

namespace RoutePolicy

/-- The least number that rounds to infinity. -/
def doubleLimit : Nat := Nat.pow 2 1024 - Nat.pow 2 970

/-- Whether `mantissa * 10 ^ exponent` rounds to infinity. -/
def exceedsDouble (mantissa : Nat) (exponent : Int) : Bool :=
  if mantissa = 0 then false
  else
    let digits : Int := (Nat.toDigits 10 mantissa).length
    if digits + exponent < 300 then false
    else if 400 < digits + exponent then true
    else match exponent with
      | .ofNat e => doubleLimit ≤ mantissa * Nat.pow 10 e
      | .negSucc e => doubleLimit * Nat.pow 10 (e + 1) ≤ mantissa

/-- The nearest number with 53 significant bits, the even one of two. -/
def roundToDouble (n : Nat) : Nat :=
  let unit := 1 <<< (n.log2 - 52)
  let rest := 2 * (n % unit)
  let count := n / unit
  (if unit < rest || rest == unit && count % 2 == 1 then count + 1 else count) * unit

example : roundToDouble 9007199254740993 = 9007199254740992 := by decide

/-- Whether the product of a number and a power of ten rounds to infinity, when both are rounded
before they are multiplied.  From 10 ^ 309 on the power itself is too large. -/
def productExceedsDouble (n : Nat) (exponent : Int) : Bool :=
  match exponent with
  | .ofNat e =>
    n != 0 && (308 < e || doubleLimit ≤ roundToDouble n * roundToDouble (Nat.pow 10 e))
  | .negSucc _ => false

end RoutePolicy
