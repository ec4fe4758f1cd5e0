/-!
# Hexadecimal digits

Digits are written in lower case and read in either case.

* `Hexadecimal.digit`, `Hexadecimal.value?` — one digit and its value;
* `Hexadecimal.ofBytes` — two digits for each byte;
* `value?_digit` — reading a digit undoes writing it.
-/

set_option autoImplicit false

namespace RoutePolicy

namespace Hexadecimal

/-- The digit of a number below 16. -/
def digit (n : Nat) : Char :=
  if n < 10 then Char.ofNat ('0'.toNat + n) else Char.ofNat ('a'.toNat + (n - 10))

/-- The value of a digit in either case. -/
def value? (c : Char) : Option Nat :=
  if '0' ≤ c ∧ c ≤ '9' then some (c.toNat - '0'.toNat)
  else if 'a' ≤ c ∧ c ≤ 'f' then some (c.toNat - 'a'.toNat + 10)
  else if 'A' ≤ c ∧ c ≤ 'F' then some (c.toNat - 'A'.toNat + 10)
  else none

theorem value?_digit {n : Nat} (h : n < 16) : value? (digit n) = some n := by
  have all : ∀ n : Fin 16, value? (digit n.val) = some n.val := by decide +kernel
  exact all ⟨n, h⟩

/-- The number of a list of digits. -/
def number? (cs : List Char) : Option Nat :=
  cs.foldlM (fun n c => (value? c).map fun d => n * 16 + d) 0

/-- The two digits of a byte. -/
def ofByte (b : UInt8) : List Char := [digit (b.toNat / 16), digit (b.toNat % 16)]

/-- The digits of several bytes. -/
def ofBytes (bs : List UInt8) : String := String.ofList (bs.flatMap ofByte)

end Hexadecimal

end RoutePolicy
