import RoutePolicy.Proofs.Prefix.Addresses
import RoutePolicy.Proofs.Prefix.Text
import RoutePolicy.Proofs.Text.Halves
import RoutePolicy.Proofs.Text.Numeral

/-!
# Which texts are prefixes

* `Address.Dotted` — the grammar of addresses: four octets with dots between them;
* `Address.read?_eq_some_iff` — exactly those texts are read;
* `Prefix.Reads` — what a text gives, the prefix or the first thing that is wrong with it;
* `Prefix.parse_accepts` — reading gives just that, and undoes writing.
-/

set_option autoImplicit false

namespace RoutePolicy

namespace Address

/-- `IsOctet cs n`: the text is a number up to 255 in decimal digits, without a leading zero. -/
structure IsOctet (cs : List Char) (n : Nat) : Prop where
  ne_nil : cs ≠ []
  isDigit : ∀ c ∈ cs, c.isDigit = true
  noLeadingZero : ∀ rest, cs = '0' :: rest → rest = []
  value_eq : Nat.ofDigitChars 10 cs 0 = n
  le : n ≤ 255

/-- `Dotted cs a`: the text is the four octets of the address, the highest one first, with dots
between them. -/
inductive Dotted : List Char → Address → Prop where
  | octets {cs₁ cs₂ cs₃ cs₄ : List Char} {n₁ n₂ n₃ n₄ : Nat} (h₁ : IsOctet cs₁ n₁)
    (h₂ : IsOctet cs₂ n₂) (h₃ : IsOctet cs₃ n₃) (h₄ : IsOctet cs₄ n₄) :
    Dotted (cs₁ ++ '.' :: (cs₂ ++ '.' :: (cs₃ ++ '.' :: cs₄))) (ofOctets n₁ n₂ n₃ n₄)

variable {cs : List Char} {n : Nat} {a : Address}

theorem IsOctet.dot_notMem (h : IsOctet cs n) : '.' ∉ cs := fun hdot =>
  absurd (h.isDigit '.' hdot) (by decide)

theorem IsOctet.readOctet?_eq (h : IsOctet cs n) : readOctet? cs = some n := by
  have hvalue : Decimal.readDigits 255 0 cs = .ok n :=
    (Decimal.readDigits_eq_ok_iff (Nat.zero_le _)).mpr ⟨h.isDigit, h.value_eq, h.le⟩
  unfold readOctet?
  split
  · exact absurd rfl h.ne_nil
  · exact congrArg some h.value_eq
  · rename_i hrest
    exact absurd (h.noLeadingZero _ rfl) hrest
  · rw [hvalue]

theorem readOctet?_eq_some_iff : readOctet? cs = some n ↔ IsOctet cs n := by
  refine ⟨fun h => ?_, IsOctet.readOctet?_eq⟩
  unfold readOctet? at h
  split at h
  · cases h
  · cases h
    exact ⟨by simp, by simp, by simp, rfl, by decide⟩
  · cases h
  · rename_i hne _ hzero
    cases hvalue : Decimal.readDigits 255 0 cs with
    | error cause =>
      rw [hvalue] at h
      cases h
    | ok value =>
      rw [hvalue] at h
      cases h
      obtain ⟨hdigits, heq, hle⟩ := (Decimal.readDigits_eq_ok_iff (Nat.zero_le _)).mp hvalue
      exact ⟨hne, hdigits, fun rest hrest => absurd hrest (hzero rest), heq, hle⟩

theorem Dotted.read?_eq (h : Dotted cs a) : read? cs = some a := by
  obtain ⟨h₁, h₂, h₃, h₄⟩ := h
  rw [read?, splitAll_append h₁.dot_notMem, splitAll_append h₂.dot_notMem,
    splitAll_append h₃.dot_notMem, splitAll_of_notMem h₄.dot_notMem]
  simp only [h₁.readOctet?_eq, h₂.readOctet?_eq, h₃.readOctet?_eq, h₄.readOctet?_eq,
    Option.bind_eq_bind, Option.bind_some]
  rfl

/-- Exactly the dotted forms are read. -/
theorem read?_eq_some_iff : read? cs = some a ↔ Dotted cs a := by
  refine ⟨fun h => ?_, Dotted.read?_eq⟩
  unfold read? at h
  split at h
  · rename_i cs₁ cs₂ cs₃ cs₄ hsplit
    simp only [Option.bind_eq_bind, Option.bind_eq_some_iff] at h
    obtain ⟨n₁, h₁, n₂, h₂, n₃, h₃, n₄, h₄, ha⟩ := h
    cases ha
    have hcs := intercalate_splitAll '.' cs
    rw [hsplit] at hcs
    rw [← hcs]
    simpa [List.intercalate] using Dotted.octets (readOctet?_eq_some_iff.mp h₁)
      (readOctet?_eq_some_iff.mp h₂) (readOctet?_eq_some_iff.mp h₃) (readOctet?_eq_some_iff.mp h₄)
  · cases h

theorem read?_eq_none_iff : read? cs = none ↔ ∀ a, ¬ Dotted cs a := by
  rw [Option.eq_none_iff_forall_ne_some]
  exact forall_congr' fun a => not_congr read?_eq_some_iff

end Address

namespace Prefix

open Address Decimal

/-- What a text gives: a prefix, when its halves at the first slash are a dotted form and a numeral up
to 32, or else the first thing that is wrong. -/
inductive Reads (text : String) : Except Cause Prefix → Prop where
  | noLength (h : '/' ∉ text.toList) : Reads text (.error (.noLength text))
  | badAddress {address length : List Char} (hhalves : Halves '/' text address length)
    (h : ∀ a, ¬ Dotted address a) : Reads text (.error (.badAddress text))
  | badLength {address length : List Char} {a : Address} {cause : Decimal.Cause}
    (hhalves : Halves '/' text address length) (haddress : Dotted address a)
    (h : Unreadable 255 length cause) : Reads text (.error (.badLength text cause))
  | tooLong {address length : List Char} {a : Address} {n : Nat}
    (hhalves : Halves '/' text address length) (haddress : Dotted address a)
    (hlength : Numeral length n) (hbyte : n ≤ 255) (h : 32 < n) : Reads text (.error (.tooLong n))
  | around {address length : List Char} {a : Address} {n : Nat} {p : Prefix}
    (hhalves : Halves '/' text address length) (haddress : Dotted address a)
    (hlength : Numeral length n) (hle : n ≤ 32) (h : p.IsAround a n) : Reads text (.ok p)

variable {text : String}

theorem toNat_ofNat_of_le {n : Nat} (h : n ≤ 255) : (UInt8.ofNat n).toNat = n := by
  rw [UInt8.toNat_ofNat']
  exact Nat.mod_eq_of_lt (by omega)

/-- A length that fits a byte gives a prefix up to 32 and is refused beyond. -/
theorem ofAddress_ofNat_cases {n : Nat} (a : Address) (hbyte : n ≤ 255) :
    (n ≤ 32 ∧ ∃ p, ofAddress a (UInt8.ofNat n) = .ok p ∧ p.IsAround a n) ∨
      (32 < n ∧ ofAddress a (UInt8.ofNat n) = .error (.tooLong n)) := by
  have hn := toNat_ofNat_of_le hbyte
  have hiff : UInt8.ofNat n ≤ 32 ↔ n ≤ 32 := by
    rw [UInt8.le_iff_toNat_le, hn]
    rfl
  by_cases hle : n ≤ 32
  · have hok := ofAddress_of_le a (hiff.mpr hle)
    have haround := ofAddress_eq_ok_iff.mp hok
    rw [hn] at haround
    exact .inl ⟨hle, _, hok, haround⟩
  · have herror := ofAddress_of_not_le a (mt hiff.mp hle)
    rw [hn] at herror
    exact .inr ⟨Nat.lt_of_not_le hle, herror⟩

/-- Reading the address and the length that stand in the halves of a text. -/
theorem parse_of_halves {address length : List Char} (hhalves : Halves '/' text address length) :
    parse text =
      match Address.read? address with
      | none => .error (.badAddress text)
      | some a =>
        match Decimal.read 255 length with
        | .error cause => .error (.badLength text cause)
        | .ok n => ofAddress a (UInt8.ofNat n) := by
  obtain ⟨front, back, hsplit, rfl, rfl⟩ := halves_iff.mp hhalves
  unfold parse
  exact hsplit ▸ rfl

/-- Every text gives what it is read as. -/
theorem reads_parse (text : String) : Reads text (parse text) := by
  cases hsplit : splitFirst '/' text.toList with
  | none =>
    have hslash := splitFirst_eq_none_iff.mp hsplit
    rw [parse, hsplit]
    exact .noLength hslash
  | some halves =>
    have hhalves : Halves '/' text (trimBlank halves.1) (trimBlank halves.2) :=
      halves_iff.mpr ⟨_, _, hsplit, rfl, rfl⟩
    rw [parse_of_halves hhalves]
    cases haddress : Address.read? (trimBlank halves.1) with
    | none => exact .badAddress hhalves (read?_eq_none_iff.mp haddress)
    | some a =>
      have hdotted := read?_eq_some_iff.mp haddress
      cases hlength : Decimal.read 255 (trimBlank halves.2) with
      | error cause => exact .badLength hhalves hdotted (read_eq_error_iff.mp hlength)
      | ok n =>
        obtain ⟨hnumeral, hbyte⟩ := read_eq_ok_iff.mp hlength
        dsimp only
        rcases ofAddress_ofNat_cases a hbyte with ⟨hle, p, hok, haround⟩ | ⟨hlong, herror⟩
        · rw [hok]
          exact .around hhalves hdotted hnumeral hle haround
        · rw [herror]
          exact .tooLong hhalves hdotted hnumeral hbyte hlong

/-- A text is read as what it gives. -/
theorem Reads.parse_eq {result : Except Cause Prefix} (h : Reads text result) :
    parse text = result := by
  cases h with
  | noLength h => rw [parse, splitFirst_of_notMem h]
  | badAddress hhalves h => rw [parse_of_halves hhalves, read?_eq_none_iff.mpr h]
  | badLength hhalves haddress h =>
    rw [parse_of_halves hhalves, haddress.read?_eq]
    dsimp only
    rw [read_eq_error_iff.mpr h]
  | @tooLong address length a n hhalves haddress hlength hbyte h =>
    rw [parse_of_halves hhalves, haddress.read?_eq]
    dsimp only
    rw [read_eq_ok_iff.mpr ⟨hlength, hbyte⟩]
    rcases ofAddress_ofNat_cases a hbyte with ⟨hle, -⟩ | ⟨-, herror⟩
    · omega
    · exact herror
  | @around address length a n p hhalves haddress hlength hle h =>
    have hbyte : n ≤ 255 := by omega
    rw [parse_of_halves hhalves, haddress.read?_eq]
    dsimp only
    rw [read_eq_ok_iff.mpr ⟨hlength, hbyte⟩]
    rcases ofAddress_ofNat_cases a hbyte with ⟨-, p', hok, haround⟩ | ⟨hlong, -⟩
    · exact hok.trans (congrArg Except.ok (haround.unique h))
    · omega

/-- **Reading prefixes.**  A text is read as a prefix exactly if an address and a length up to 32
stand before and behind its first slash, with blanks around them; the prefix is the one of that
length around the address.  Any other text is refused for the first thing that is wrong: the slash,
the address, the numeral of the length, its size.  Reading the text form of a prefix gives the
prefix, so distinct prefixes have distinct text forms, and the text form of what was read is
read as itself. -/
theorem parse_accepts :
    (∀ text result, parse text = result ↔ Reads text result) ∧
    (∀ p, parse p.text = .ok p) ∧
    (∀ p q : Prefix, p.text = q.text ↔ p = q) ∧
    ∀ text text', (parse text).map Prefix.text = .ok text' →
      (parse text').map Prefix.text = .ok text' := by
  refine ⟨fun text result => ⟨fun h => h ▸ reads_parse text, Reads.parse_eq⟩, parse_text,
    fun p q => ⟨text_injective, congrArg Prefix.text⟩, fun text text' h => ?_⟩
  cases hparse : parse text with
  | error cause =>
    rw [hparse] at h
    cases h
  | ok p =>
    rw [hparse] at h
    cases h
    rw [parse_text]
    rfl

/-- Blanks, a plus sign, leading zeros and host bits. -/
example : (parse "10.1.2.3 / +016").map Prefix.text = .ok "10.1.0.0/16" := by decide +kernel

/-- Digits that are too large win over a wrong character behind them. -/
example : parse "10.0.0.0/300x" = .error (.badLength "10.0.0.0/300x" .tooLarge) := by decide +kernel

end Prefix

end RoutePolicy
