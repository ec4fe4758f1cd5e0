import RoutePolicy.Community
import RoutePolicy.Proofs.Text.Decimal

/-!
# Reading a community undoes writing it

* `Community.number_ofHalves` — the number of a community is that of its two halves;
* `Community.ofHalves_asn_value` — a community is made of its two halves;
* `Community.parse?_text` — reading the text form of a community.
-/

set_option autoImplicit false

namespace RoutePolicy

namespace Community

theorem asn_eq (c : Community) : c.asn = c.number.toNat / 65536 := by
  rw [asn, UInt32.toNat_shiftRight, Nat.shiftRight_eq_div_pow]
  rfl

theorem value_eq (c : Community) : c.value = c.number.toNat % 65536 := by
  rw [value, UInt32.toNat_and]
  exact Nat.and_two_pow_sub_one_eq_mod _ 16

theorem asn_le (c : Community) : c.asn ≤ 65535 := by
  have hnumber : c.number.toNat < 4294967296 := c.number.toNat_lt
  rw [asn_eq]
  omega

theorem value_le (c : Community) : c.value ≤ 65535 := by
  rw [value_eq]
  omega

theorem toNat_half {n : Nat} (h : n ≤ 65535) : (UInt16.ofNat n).toUInt32.toNat = n := by
  rw [UInt16.toNat_toUInt32, UInt16.toNat_ofNat', Nat.mod_eq_of_lt (by omega)]

/-- The number of a community: the upper half counts 65536 times. -/
theorem number_ofHalves {n m : Nat} (hn : n ≤ 65535) (hm : m ≤ 65535) :
    (ofHalves (UInt16.ofNat n) (UInt16.ofNat m)).number.toNat = n * 65536 + m := by
  have hlow : m < 2 ^ 16 := by omega
  have hfits : n <<< 16 < 2 ^ 32 := by
    rw [Nat.shiftLeft_eq]
    omega
  have hhigh : ((UInt16.ofNat n).toUInt32 <<< 16).toNat = n <<< 16 := by
    rw [UInt32.toNat_shiftLeft, toNat_half hn]
    exact Nat.mod_eq_of_lt hfits
  rw [ofHalves, UInt32.toNat_or, hhigh, toNat_half hm, ← Nat.shiftLeft_add_eq_or_of_lt hlow,
    Nat.shiftLeft_eq]

theorem eq_of_number_eq {c d : Community} (h : c.number.toNat = d.number.toNat) : c = d := by
  obtain ⟨x⟩ := c
  obtain ⟨y⟩ := d
  exact congrArg mk (UInt32.toNat_inj.mp h)

/-- A community is made of its two halves. -/
theorem ofHalves_asn_value (c : Community) :
    ofHalves (UInt16.ofNat c.asn) (UInt16.ofNat c.value) = c := by
  refine eq_of_number_eq ?_
  rw [number_ofHalves c.asn_le c.value_le, asn_eq, value_eq]
  omega

theorem readHalf?_digits {n : Nat} (h : n ≤ 65535) :
    readHalf? (Decimal.digits n) = some (UInt16.ofNat n) := by
  rw [readHalf?, trimBlank_digits, Decimal.read_digits h]

/-- **Reading the text form of a community gives the community.** -/
theorem parse?_text (c : Community) : parse? c.text = some c := by
  have htext : c.text.toList = Decimal.digits c.asn ++ ':' :: Decimal.digits c.value := by
    simp [text, Decimal.text]
  have hcolon : ':' ∉ Decimal.digits c.asn := Decimal.notMem_digits (by decide) _
  rw [parse?, htext, splitFirst_append hcolon]
  simp only [Option.bind_eq_bind, Option.bind_some, readHalf?_digits c.asn_le,
    readHalf?_digits c.value_le, ofHalves_asn_value]
  rfl

theorem text_injective {c d : Community} (h : c.text = d.text) : c = d := by
  have hparse := parse?_text c
  rw [h, parse?_text d, Option.some.injEq] at hparse
  exact hparse.symm

end Community

end RoutePolicy
