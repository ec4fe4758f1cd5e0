import RoutePolicy.Prefix.Text
import RoutePolicy.Proofs.Text.Decimal
import RoutePolicy.Proofs.Text.Split

/-!
# Reading an address or a prefix undoes writing it

* `Address.read?_text` — the dotted form of an address;
* `Prefix.parse_text` — the text form of a prefix.
-/

set_option autoImplicit false

namespace RoutePolicy

namespace Address

theorem readOctet?_digits {n : Nat} (h : n ≤ 255) : readOctet? (Decimal.digits n) = some n := by
  have all : ∀ n : Fin 256, readOctet? (Decimal.digits n.val) = some n.val := by decide +kernel
  exact all ⟨n, by omega⟩

theorem octet_le (a : Address) (shift : UInt32) : a.octet shift ≤ 255 := by
  rw [octet, UInt32.toNat_and]
  exact Nat.and_le_right

/-- An address is made of its four octets. -/
theorem ofOctets_octet (a : Address) :
    ofOctets (a.octet 24) (a.octet 16) (a.octet 8) (a.octet 0) = a := by
  have hbits : a.bits.toNat < 4294967296 := a.bits.toNat_lt
  have hoctet : ∀ (shift : UInt32) (n : Nat), shift.toNat = n → n < 32 →
      a.octet shift = a.bits.toNat / 2 ^ n % 256 := by
    intro shift n hshift hn
    rw [octet, UInt32.toNat_and, UInt32.toNat_shiftRight, hshift, Nat.mod_eq_of_lt hn,
      Nat.shiftRight_eq_div_pow]
    exact Nat.and_two_pow_sub_one_eq_mod _ 8
  rw [hoctet 24 24 rfl (by decide), hoctet 16 16 rfl (by decide), hoctet 8 8 rfl (by decide),
    hoctet 0 0 rfl (by decide), ofOctets]
  have hsum : ((a.bits.toNat / 2 ^ 24 % 256 * 256 + a.bits.toNat / 2 ^ 16 % 256) * 256
      + a.bits.toNat / 2 ^ 8 % 256) * 256 + a.bits.toNat / 2 ^ 0 % 256 = a.bits.toNat := by
    omega
  rw [hsum, UInt32.ofNat_toNat]

theorem toList_text (a : Address) : a.text.toList =
    Decimal.digits (a.octet 24) ++ '.' :: (Decimal.digits (a.octet 16) ++ '.' ::
      (Decimal.digits (a.octet 8) ++ '.' :: Decimal.digits (a.octet 0))) := by
  simp [text, Decimal.text]

/-- **Reading the dotted form of an address gives the address.** -/
theorem read?_text (a : Address) : read? a.text.toList = some a := by
  have hdot : ∀ n, '.' ∉ Decimal.digits n := Decimal.notMem_digits (by decide)
  have hsplit : splitAll '.' a.text.toList =
      [Decimal.digits (a.octet 24), Decimal.digits (a.octet 16), Decimal.digits (a.octet 8),
        Decimal.digits (a.octet 0)] := by
    rw [toList_text, splitAll_append (hdot _), splitAll_append (hdot _), splitAll_append (hdot _),
      splitAll_of_notMem (hdot _)]
  rw [read?, hsplit]
  simp only [readOctet?_digits (octet_le a _), Option.bind_eq_bind, Option.bind_some,
    ofOctets_octet]
  rfl

theorem isBlank_of_mem_text {a : Address} {c : Char} (h : c ∈ a.text.toList) :
    isBlank c = false := by
  have hdigits : ∀ n, c ∈ Decimal.digits n → isBlank c = false := fun n hc =>
    isBlank_of_isDigit (Decimal.isDigit_of_mem_digits hc)
  simp only [toList_text, List.mem_append, List.mem_cons] at h
  rcases h with h | rfl | h | rfl | h | rfl | h
  · exact hdigits _ h
  · decide
  · exact hdigits _ h
  · decide
  · exact hdigits _ h
  · decide
  · exact hdigits _ h

theorem slash_notMem_text (a : Address) : '/' ∉ a.text.toList := by
  have hdigits : ∀ n, '/' ∉ Decimal.digits n := Decimal.notMem_digits (by decide)
  simp [toList_text, hdigits]

end Address

namespace Prefix

/-- A prefix is the prefix of its length around its network. -/
theorem ofAddress?_network (p : Prefix) : ofAddress? p.network p.length = some p := by
  have hnetwork : (⟨p.network.bits &&& networkMask p.length⟩ : Address) = p.network := by
    rw [p.canonical]
  rw [ofAddress?, dif_pos p.length_le, Option.some.injEq]
  cases p
  simp only [around, mk.injEq, and_true]
  exact hnetwork

/-- **Reading the text form of a prefix gives the prefix.** -/
theorem parse_text (p : Prefix) : parse p.text = .ok p := by
  have htext : p.text.toList =
      p.network.text.toList ++ '/' :: Decimal.digits p.length.toNat := by
    simp [text, Decimal.text]
  have haddress : trimBlank p.network.text.toList = p.network.text.toList :=
    trimBlank_of_forall fun _ hc => Address.isBlank_of_mem_text hc
  have hlength : Decimal.read 255 (Decimal.digits p.length.toNat) = .ok p.length.toNat :=
    Decimal.read_digits (by have := p.length.toNat_lt; omega)
  rw [parse, htext, splitFirst_append (Address.slash_notMem_text _)]
  simp only [haddress, Address.read?_text, trimBlank_digits, hlength, UInt8.ofNat_toNat, ofAddress,
    ofAddress?_network]

theorem text_injective {p q : Prefix} (h : p.text = q.text) : p = q := by
  have hparse := parse_text p
  rw [h, parse_text q, Except.ok.injEq] at hparse
  exact hparse.symm

end Prefix

end RoutePolicy
