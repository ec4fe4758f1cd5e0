import RoutePolicy.Json.Basic
import RoutePolicy.Text.Hexadecimal
import RoutePolicy.Text.Magnitude

/-!
# Numbers and dates of a TOML text

* `integer?` — an integer of 64 bits, in decimal with a sign or in base 16, 8 or 2 without one;
* `float?` — a number with a fraction or an exponent, an infinity, or no number at all;
* `dateTime?` — a date, a time, or both with an optional offset.

An underscore may stand between two digits.  A float keeps its text, and a date is kept as its text
in a record of its own, so that it is not taken for a string.
-/

set_option autoImplicit false

namespace RoutePolicy

namespace Toml

/-- Whether a character is a decimal digit. -/
def isDigit (c : Char) : Bool := '0' ≤ c && c ≤ '9'

/-- Reads the digits after a first one. -/
def moreDigits? (p : Char → Bool) : List Char → Option (List Char × List Char)
  | '_' :: c :: rest =>
    if p c then (moreDigits? p rest).map fun r => (c :: r.1, r.2) else none
  | ['_'] => none
  | c :: rest =>
    if p c then (moreDigits? p rest).map fun r => (c :: r.1, r.2) else some ([], c :: rest)
  | [] => some ([], [])

/-- Reads one or more digits. -/
def digits? (p : Char → Bool) : List Char → Option (List Char × List Char)
  | c :: rest => if p c then (moreDigits? p rest).map fun r => (c :: r.1, r.2) else none
  | [] => none

/-- Reads a sign, if there is one; true is a minus. -/
def sign : List Char → Bool × List Char
  | '-' :: rest => (true, rest)
  | '+' :: rest => (false, rest)
  | cs => (false, cs)

/-- Reads the digits of a whole number: zero alone, or digits that do not start with zero. -/
def whole? : List Char → Option (List Char × List Char)
  | '0' :: rest => some (['0'], rest)
  | cs => digits? isDigit cs

/-- The number of some digits. -/
def numberOf (digits : List Char) (base : Nat) : Nat :=
  digits.foldl (fun n c => n * base + (Hexadecimal.value? c).getD 0) 0

/-- The integer with a sign and a magnitude, if it has 64 bits. -/
def signed? (negative : Bool) (n : Nat) : Option Json :=
  if negative then if n ≤ 0x8000000000000000 then some (.int (-(n : Int))) else none
  else if n < 0x8000000000000000 then some (.int n) else none

/-- Reads digits of a base. -/
def based? (base : Nat) (cs : List Char) : Option (Json × List Char) := do
  let (digits, rest) ← digits? (fun c => (Hexadecimal.value? c).any (· < base)) cs
  let v ← signed? false (numberOf digits base)
  return (v, rest)

/-- Reads an integer. -/
def integer? : List Char → Option (Json × List Char)
  | '0' :: 'x' :: rest => based? 16 rest
  | '0' :: 'o' :: rest => based? 8 rest
  | '0' :: 'b' :: rest => based? 2 rest
  | cs => do
    let (negative, cs) := sign cs
    let (digits, rest) ← whole? cs
    let v ← signed? negative (numberOf digits 10)
    return (v, rest)

/-- Reads a fraction, if there is one. -/
def fraction? : List Char → Option (List Char × List Char)
  | '.' :: rest => digits? isDigit rest
  | cs => some ([], cs)

/-- Reads an exponent, if there is one. -/
def exponent? : List Char → Option (Option Int × List Char)
  | c :: rest =>
    if c = 'e' || c = 'E' then do
      let (negative, cs) := sign rest
      let (digits, rest) ← digits? isDigit cs
      let n := numberOf digits 10
      return (some (if negative then -(n : Int) else n), rest)
    else some (none, c :: rest)
  | [] => some (none, [])

/-- The text between two places, of which the second one comes later. -/
def taken (cs rest : List Char) : String := String.ofList (cs.take (cs.length - rest.length))

/-- The text after a float.  A positive one has to be finite unless it is written as an infinity. -/
def afterFloat? (cs : List Char) : Option (List Char) :=
  let (negative, cs) := sign cs
  match cs with
  | 'i' :: 'n' :: 'f' :: rest => some rest
  | 'n' :: 'a' :: 'n' :: rest => some rest
  | cs => do
    let (whole, cs) ← whole? cs
    let (fraction, cs) ← fraction? cs
    let (exponent, rest) ← exponent? cs
    if fraction.isEmpty && exponent.isNone then none
    let scale := exponent.getD 0 - fraction.length
    if !negative && exceedsDouble (numberOf (whole ++ fraction) 10) scale then none
    return rest

/-- Reads a float. -/
def float? (cs : List Char) : Option (Json × List Char) :=
  (afterFloat? cs).map fun rest => (.decimal (taken cs rest), rest)

/-- Reads a number of exactly `count` digits between two bounds. -/
def fixed? (count lower upper : Nat) (cs : List Char) : Option (Nat × List Char) :=
  let digits := cs.take count
  let n := numberOf digits 10
  if digits.length = count ∧ digits.all isDigit ∧ lower ≤ n ∧ n ≤ upper then some (n, cs.drop count)
  else none

/-- Reads one character. -/
def mark? (c : Char) : List Char → Option (List Char)
  | d :: rest => if c = d then some rest else none
  | [] => none

/-- The number of days in a month. -/
def daysIn (year month : Nat) : Nat :=
  if month = 2 then
    if year % 4 = 0 ∧ (year % 100 ≠ 0 ∨ year % 400 = 0) then 29 else 28
  else if month = 4 ∨ month = 6 ∨ month = 9 ∨ month = 11 then 30
  else 31

/-- The text after a date. -/
def date? (cs : List Char) : Option (List Char) := do
  let (year, cs) ← fixed? 4 0 9999 cs
  let cs ← mark? '-' cs
  let (month, cs) ← fixed? 2 1 12 cs
  let cs ← mark? '-' cs
  let (_, cs) ← fixed? 2 1 (daysIn year month) cs
  return cs

/-- The text after the fraction of a second, if there is one. -/
def subsecond : List Char → List Char
  | '.' :: c :: rest => if isDigit c then rest.dropWhile isDigit else '.' :: c :: rest
  | cs => cs

/-- The text after a time; a minute may have a leap second. -/
def time? (cs : List Char) : Option (List Char) := do
  let (_, cs) ← fixed? 2 0 23 cs
  let cs ← mark? ':' cs
  let (_, cs) ← fixed? 2 0 59 cs
  let cs ← mark? ':' cs
  let (_, cs) ← fixed? 2 0 60 cs
  return subsecond cs

/-- The text after an offset, if there is one. -/
def offset? : List Char → Option (List Char)
  | c :: rest =>
    if c = 'Z' || c = 'z' then some rest
    else if c = '+' || c = '-' then do
      let (_, cs) ← fixed? 2 0 23 rest
      let cs ← mark? ':' cs
      let (_, cs) ← fixed? 2 0 59 cs
      return cs
    else some (c :: rest)
  | [] => some []

/-- The text after a time and an offset that follow a date, if they do. -/
def timeOfDay? : List Char → Option (List Char)
  | c :: rest =>
    if c = 'T' || c = 't' || c = ' ' then
      match time? rest with
      | some cs => offset? cs
      | none => some (c :: rest)
    else some (c :: rest)
  | [] => some []

/-- The text after a date, a time, or both. -/
def afterDateTime? (cs : List Char) : Option (List Char) :=
  match date? cs with
  | some rest => timeOfDay? rest
  | none => time? cs

/-- Reads a date, a time, or both. -/
def dateTime? (cs : List Char) : Option (Json × List Char) :=
  (afterDateTime? cs).map fun rest => (.object [("date-time", .string (taken cs rest))], rest)

/-- Reads a number or a date. -/
def number? (cs : List Char) : Option (Json × List Char) :=
  (dateTime? cs).or ((float? cs).or (integer? cs))

end Toml

end RoutePolicy
