import RoutePolicy.Text.Hexadecimal

/-!
# Epochs

The identity of a run is a number of 128 bits.  Its text is thirty-two hexadecimal digits in
groups of 8, 4, 4, 4 and 12 with hyphens between them.

* `Epoch.text`, `Epoch.parse?` — the text form, and the forms that can be read;
* `Epoch.fresh` — an epoch made of random bits, marked as such by its version.
-/

set_option autoImplicit false

namespace RoutePolicy

/-- The identity of a run. -/
structure Epoch where
  number : BitVec 128
  deriving DecidableEq

namespace Epoch

/-- The text form. -/
def text (e : Epoch) : String :=
  let digits := (List.range 32).map fun i =>
    Hexadecimal.digit (e.number.toNat >>> (4 * (31 - i)) % 16)
  String.ofList <| digits.take 8 ++ '-' :: (digits.drop 8).take 4 ++ '-' :: (digits.drop 12).take 4
    ++ '-' :: (digits.drop 16).take 4 ++ '-' :: digits.drop 20

/-- The epoch of exactly thirty-two digits. -/
def ofDigits? (cs : List Char) : Option Epoch :=
  if cs.length = 32 then (Hexadecimal.number? cs).map fun n => ⟨BitVec.ofNat 128 n⟩ else none

/-- The epoch of groups of digits with hyphens between them. -/
def ofGroups? (cs : List Char) : Option Epoch :=
  let hyphen (i : Nat) : Bool := cs[i]? == some '-'
  if cs.length = 36 ∧ hyphen 8 ∧ hyphen 13 ∧ hyphen 18 ∧ hyphen 23 then
    ofDigits? (cs.take 8 ++ (cs.drop 9).take 4 ++ (cs.drop 14).take 4 ++ (cs.drop 19).take 4
      ++ cs.drop 24)
  else none

/-- What the URN of an epoch begins with, in any case. -/
def namespaceText : List Char := ['u', 'r', 'n', ':', 'u', 'u', 'i', 'd', ':']

/-- Reads an epoch: digits alone, in groups, in groups between braces, or in groups as a URN. -/
def parse? (text : String) : Option Epoch :=
  match text.toList with
  | '{' :: rest => if rest.getLast? = some '}' then ofGroups? rest.dropLast else none
  | cs =>
    if (cs.take namespaceText.length).map Char.toLower = namespaceText then
      ofGroups? (cs.drop namespaceText.length)
    else (ofDigits? cs).or (ofGroups? cs)

/-- The version that an epoch is marked with. -/
def version (e : Epoch) : Nat := (e.number >>> 76).toNat % 16

/-- The epoch of random bits: version 4 and the variant `10` take the place of six of them. -/
def ofRandom (bits : BitVec 128) : Epoch :=
  let cleared := bits &&& ~~~((0xF : BitVec 128) <<< 76 ||| (0x3 : BitVec 128) <<< 62)
  ⟨cleared ||| (0x4 : BitVec 128) <<< 76 ||| (0x2 : BitVec 128) <<< 62⟩

/-- A fresh epoch. -/
def fresh (g : StdGen) : Epoch × StdGen :=
  let (n, g) := randNat g 0 0xFFFFFFFFFFFFFFFFFFFFFFFFFFFFFFFF
  (ofRandom (BitVec.ofNat 128 n), g)

end Epoch

end RoutePolicy
