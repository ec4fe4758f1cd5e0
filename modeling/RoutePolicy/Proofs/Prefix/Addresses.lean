import RoutePolicy.Prefix.Text

/-!
# A prefix as a set of addresses

A prefix covers the addresses whose first bits are those of its network.  Everything is said about
single bits, counted from the highest one; the masks only come in through `bit_masked`.

* `checkedMask?_of_le` — no mask is computed by a shift of a whole word or more;
* `Prefix.covers_iff` — covering an address is comparing it under the mask;
* `Prefix.contains_iff_covers` — a prefix contains another one exactly if it covers its addresses;
* `Prefix.contains_inclusion` — so containment is a partial order of sets that are disjoint or nested.
-/

set_option autoImplicit false

namespace RoutePolicy

/-! ## Masks -/

/-- The difference of two words, unless it lies below zero. -/
def checkedSub? (a b : UInt32) : Option UInt32 := if b ≤ a then some (a - b) else none

/-- A word shifted to the left, unless by a whole word or more. -/
def checkedShiftLeft? (a b : UInt32) : Option UInt32 := if b < 32 then some (a <<< b) else none

/-- The word whose first `length` bits are set, by arithmetic that does not wrap. -/
def checkedMask? (length : UInt8) : Option UInt32 :=
  if length = 0 then some 0
  else (checkedSub? 32 length.toUInt32).bind (checkedShiftLeft? 0xFFFFFFFF)

variable {length : UInt8}

theorem toNat_length_le (h : length ≤ 32) : length.toNat ≤ 32 := UInt8.le_iff_toNat_le.mp h

theorem toNat_length_pos (h : length ≠ 0) : 0 < length.toNat := by
  have hne : length.toNat ≠ 0 := fun h0 => h (UInt8.toNat_inj.mp h0)
  omega

theorem toUInt32_length_le (h : length ≤ 32) : length.toUInt32 ≤ 32 := by
  rw [UInt32.le_iff_toNat_le, UInt8.toNat_toUInt32]
  exact toNat_length_le h

/-- The distance by which a mask is shifted. -/
theorem toNat_distance (h : length ≤ 32) : (32 - length.toUInt32).toNat = 32 - length.toNat := by
  rw [UInt32.toNat_sub_of_le _ _ (toUInt32_length_le h), UInt8.toNat_toUInt32]
  rfl

theorem checkedMask?_of_le (h : length ≤ 32) : checkedMask? length = some (networkMask length) := by
  rw [checkedMask?, networkMask]
  split
  · rfl
  · rename_i hne
    have hpos := toNat_length_pos hne
    have hshift : 32 - length.toUInt32 < 32 := by
      rw [UInt32.lt_iff_toNat_lt, toNat_distance h]
      show 32 - length.toNat < 32
      omega
    rw [checkedSub?, if_pos (toUInt32_length_le h), Option.bind_some, checkedShiftLeft?,
      if_pos hshift]

/-- A longer mask would be shifted by a negative distance, and without the case of length 0 that one
by a whole word. -/
example : checkedMask? 33 = none ∧ checkedShiftLeft? 0xFFFFFFFF 32 = none := by decide

namespace Address

/-- The bit at a position counted from the highest one. -/
def bit (a : Address) (i : Nat) : Bool := a.bits.toBitVec.getMsbD i

theorem eq_of_bit_eq {a b : Address} (h : ∀ i, i < 32 → a.bit i = b.bit i) : a = b := by
  have hbits : a.bits.toBitVec = b.bits.toBitVec := BitVec.eq_of_getMsbD_eq h
  obtain ⟨x⟩ := a
  obtain ⟨y⟩ := b
  exact congrArg mk (UInt32.toBitVec_inj.mp hbits)

end Address

theorem getMsbD_networkMask (h : length ≤ 32) (i : Nat) :
    (networkMask length).toBitVec.getMsbD i = decide (i < length.toNat) := by
  have hlength := toNat_length_le h
  rw [networkMask]
  split
  · rename_i hzero
    subst hzero
    simp
  · rename_i hne
    have hpos := toNat_length_pos hne
    have hdistance : ((32 - length.toUInt32).toBitVec % 32).toNat = 32 - length.toNat := by
      rw [BitVec.toNat_umod, UInt32.toNat_toBitVec, toNat_distance h]
      exact Nat.mod_eq_of_lt (by show 32 - length.toNat < 32; omega)
    have hones : (0xFFFFFFFF : UInt32).toBitVec = BitVec.allOnes 32 := rfl
    rw [UInt32.toBitVec_shiftLeft, BitVec.shiftLeft_eq', hdistance, BitVec.getMsbD_shiftLeft, hones,
      BitVec.getMsbD_allOnes]
    congr 1
    rw [eq_iff_iff]
    omega

/-- Masking keeps the first bits and clears the others. -/
theorem Address.bit_masked (h : length ≤ 32) (a : Address) (i : Nat) :
    (⟨a.bits &&& networkMask length⟩ : Address).bit i = (a.bit i && decide (i < length.toNat)) := by
  rw [bit, UInt32.toBitVec_and, BitVec.getMsbD_and, getMsbD_networkMask h]
  rfl

namespace Prefix

/-! ## Covered addresses -/

/-- Whether an address has the first bits of the network. -/
def Covers (p : Prefix) (a : Address) : Prop := ∀ i, i < p.length.toNat → a.bit i = p.network.bit i

/-- What the prefix of `length` bits around an address is: it has that length, the first bits of the
address, and no others. -/
structure IsAround (p : Prefix) (a : Address) (length : Nat) : Prop where
  length_eq : p.length.toNat = length
  bit_eq : ∀ i, i < 32 → p.network.bit i = (a.bit i && decide (i < length))

/-- The highest address of a prefix. -/
def last (p : Prefix) : Address := ⟨p.network.bits ||| ~~~networkMask p.length⟩

variable {p q r : Prefix} {a : Address}

theorem length_le_32 (p : Prefix) : p.length.toNat ≤ 32 := toNat_length_le p.length_le

theorem eq_of_network_eq (hnetwork : p.network = q.network) (hlength : p.length = q.length) :
    p = q := by
  obtain ⟨n, l, _, _⟩ := p
  obtain ⟨n', l', _, _⟩ := q
  simp only at hnetwork hlength
  subst hnetwork hlength
  rfl

/-- Behind its length the network has no bits. -/
theorem bit_network_of_le (p : Prefix) {i : Nat} (h : p.length.toNat ≤ i) :
    p.network.bit i = false := by
  have hmasked := Address.bit_masked p.length_le p.network i
  have hbehind : decide (i < p.length.toNat) = false := decide_eq_false (by omega)
  rw [p.canonical, hbehind, Bool.and_false] at hmasked
  exact hmasked

theorem covers_network (p : Prefix) : p.Covers p.network := fun _ _ => rfl

theorem bit_last (p : Prefix) {i : Nat} (h : i < 32) :
    p.last.bit i = (p.network.bit i || !decide (i < p.length.toNat)) := by
  rw [last, Address.bit, UInt32.toBitVec_or, BitVec.getMsbD_or, UInt32.toBitVec_not,
    BitVec.getMsbD_not, getMsbD_networkMask p.length_le, decide_eq_true h, Bool.true_and]
  rfl

theorem covers_last (p : Prefix) : p.Covers p.last := by
  intro i hi
  have hlength := p.length_le_32
  rw [bit_last p (by omega), decide_eq_true hi]
  exact Bool.or_false _

theorem covers_iff : p.Covers a ↔ a.bits &&& networkMask p.length = p.network.bits := by
  constructor
  · intro h
    have hmasked : (⟨a.bits &&& networkMask p.length⟩ : Address) = p.network := by
      refine Address.eq_of_bit_eq fun i _ => ?_
      rw [Address.bit_masked p.length_le]
      by_cases hi : i < p.length.toNat
      · rw [h i hi, decide_eq_true hi, Bool.and_true]
      · rw [decide_eq_false hi, Bool.and_false, p.bit_network_of_le (by omega)]
    exact congrArg Address.bits hmasked
  · intro h i hi
    have hmasked := Address.bit_masked p.length_le a i
    rw [h, decide_eq_true hi, Bool.and_true] at hmasked
    exact hmasked.symm

/-! ## Making prefixes -/

theorem isAround_around (h : length ≤ 32) : (around a length h).IsAround a length.toNat :=
  ⟨rfl, fun i _ => Address.bit_masked h a i⟩

theorem IsAround.unique {n : Nat} (hp : p.IsAround a n) (hq : q.IsAround a n) : p = q := by
  refine eq_of_network_eq (Address.eq_of_bit_eq fun i hi => ?_) ?_
  · rw [hp.bit_eq i hi, hq.bit_eq i hi]
  · exact UInt8.toNat_inj.mp (hp.length_eq.trans hq.length_eq.symm)

/-- Every prefix is the one of its length around any address that it covers. -/
theorem isAround_of_covers (h : p.Covers a) : p.IsAround a p.length.toNat := by
  refine ⟨rfl, fun i _ => ?_⟩
  by_cases hi : i < p.length.toNat
  · rw [h i hi, decide_eq_true hi, Bool.and_true]
  · rw [decide_eq_false hi, Bool.and_false, p.bit_network_of_le (by omega)]

theorem ofAddress_of_le (a : Address) (h : length ≤ 32) :
    ofAddress a length = .ok (around a length h) := by
  rw [ofAddress, ofAddress?, dif_pos h]

theorem ofAddress_of_not_le (a : Address) (h : ¬ length ≤ 32) :
    ofAddress a length = .error (.tooLong length.toNat) := by
  rw [ofAddress, ofAddress?, dif_neg h]

theorem ofAddress_eq_ok_iff : ofAddress a length = .ok p ↔ p.IsAround a length.toNat := by
  constructor
  · intro h
    by_cases hle : length ≤ 32
    · rw [ofAddress_of_le a hle, Except.ok.injEq] at h
      exact h ▸ isAround_around hle
    · rw [ofAddress_of_not_le a hle] at h
      cases h
  · intro h
    have hle : length ≤ 32 := by
      rw [← UInt8.toNat_inj.mp h.length_eq]
      exact p.length_le
    rw [ofAddress_of_le a hle, Except.ok.injEq]
    exact (isAround_around hle).unique h

/-! ## Containment -/

theorem contains_iff :
    p.contains q = true ↔ p.length.toNat ≤ q.length.toNat ∧ p.Covers q.network := by
  rw [contains, Bool.and_eq_true, decide_eq_true_eq, beq_iff_eq, covers_iff, UInt8.le_iff_toNat_le]

/-- A prefix that covers the lowest and the highest address of another one is no longer. -/
theorem length_le_of_covers (hfirst : p.Covers q.network) (hlast : p.Covers q.last) :
    p.length.toNat ≤ q.length.toNat := by
  refine Nat.le_of_not_lt fun hlonger => ?_
  have hp := p.length_le_32
  have hbit : q.last.bit q.length.toNat = q.network.bit q.length.toNat := by
    rw [hlast _ (by omega), hfirst _ (by omega)]
  rw [bit_last q (by omega), bit_network_of_le q (Nat.le_refl _),
    decide_eq_false (Nat.lt_irrefl _)] at hbit
  cases hbit

/-- A prefix contains another one exactly if it covers every address of it. -/
theorem contains_iff_covers : p.contains q = true ↔ ∀ a, q.Covers a → p.Covers a := by
  rw [contains_iff]
  constructor
  · rintro ⟨hle, hnetwork⟩ a ha i hi
    rw [ha i (by omega), hnetwork i hi]
  · intro h
    have hnetwork := h q.network q.covers_network
    exact ⟨length_le_of_covers hnetwork (h q.last q.covers_last), hnetwork⟩

theorem contains_refl (p : Prefix) : p.contains p = true := contains_iff_covers.mpr fun _ h => h

theorem contains_trans (hpq : p.contains q = true) (hqr : q.contains r = true) :
    p.contains r = true := by
  rw [contains_iff_covers] at *
  exact fun a h => hpq a (hqr a h)

theorem contains_antisymm (hpq : p.contains q = true) (hqp : q.contains p = true) : p = q := by
  obtain ⟨hle, hnetwork⟩ := contains_iff.mp hpq
  obtain ⟨hge, -⟩ := contains_iff.mp hqp
  have hlength : p.length.toNat = q.length.toNat := by omega
  -- both are the prefix of that length around the network of the second one
  have hp := isAround_of_covers hnetwork
  have hq := isAround_of_covers q.covers_network
  rw [hlength] at hp
  exact hp.unique hq

/-- Of two prefixes that cover the same address the shorter one contains the other. -/
theorem contains_of_covers (hp : p.Covers a) (hq : q.Covers a)
    (hle : p.length.toNat ≤ q.length.toNat) : p.contains q = true := by
  refine contains_iff.mpr ⟨hle, fun i hi => ?_⟩
  rw [← hq i (by omega), hp i hi]

theorem exists_covers_iff :
    (∃ a, p.Covers a ∧ q.Covers a) ↔ p.contains q = true ∨ q.contains p = true := by
  constructor
  · rintro ⟨a, hp, hq⟩
    rcases Nat.le_total p.length.toNat q.length.toNat with hle | hle
    · exact .inl (contains_of_covers hp hq hle)
    · exact .inr (contains_of_covers hq hp hle)
  · rintro (h | h)
    · exact ⟨q.network, contains_iff_covers.mp h _ q.covers_network, q.covers_network⟩
    · exact ⟨p.network, p.covers_network, contains_iff_covers.mp h _ p.covers_network⟩

/-- Being more specific is being contained without containing. -/
theorem isMoreSpecificOf_iff :
    p.isMoreSpecificOf q = true ↔ q.contains p = true ∧ p.contains q = false := by
  rw [isMoreSpecificOf, Bool.and_eq_true, decide_eq_true_eq, UInt8.lt_iff_toNat_lt]
  constructor
  · rintro ⟨hlt, hqp⟩
    refine ⟨hqp, Bool.eq_false_iff.mpr fun hpq => ?_⟩
    have hle := (contains_iff.mp hpq).1
    omega
  · rintro ⟨hqp, hpq⟩
    obtain ⟨hle, hnetwork⟩ := contains_iff.mp hqp
    refine ⟨Nat.lt_of_not_le fun hshort => ?_, hqp⟩
    have hcontains := contains_of_covers p.covers_network hnetwork hshort
    rw [hpq] at hcontains
    cases hcontains

/-- **Containment of prefixes is inclusion of their addresses.**  A prefix is made from any address
and every length up to 32, has that length and the first bits of the address and no host bits,
and so has every prefix that is read from text.  One prefix contains another exactly if it covers
all its addresses; so containment is a partial order, in which prefixes with a common address are
comparable, and being more specific is its strict part.  The masks of all prefixes are computed
without shifts by a whole word. -/
theorem contains_inclusion :
    (∀ a length, (∃ p, ofAddress a length = .ok p) ↔ length ≤ 32) ∧
    (∀ a length p, ofAddress a length = .ok p →
      p.length = length ∧ p.Covers a ∧ ∀ i, length.toNat ≤ i → p.network.bit i = false) ∧
    (∀ text p, parse text = .ok p → ∀ i, p.length.toNat ≤ i → p.network.bit i = false) ∧
    (∀ p q : Prefix, p.contains q = true ↔ ∀ a, q.Covers a → p.Covers a) ∧
    (∀ p : Prefix, p.contains p = true) ∧
    (∀ p q r : Prefix, p.contains q = true → q.contains r = true → p.contains r = true) ∧
    (∀ p q : Prefix, p.contains q = true → q.contains p = true → p = q) ∧
    (∀ p q : Prefix, (∃ a, p.Covers a ∧ q.Covers a) ↔
      p.contains q = true ∨ q.contains p = true) ∧
    (∀ p q : Prefix, p.isMoreSpecificOf q = true ↔ q.contains p = true ∧ p.contains q = false) ∧
    ∀ p : Prefix, checkedMask? p.length = some (networkMask p.length) := by
  refine ⟨fun a length => ?_, fun a length p h => ?_, fun _ p _ _ => p.bit_network_of_le,
    fun _ _ => contains_iff_covers, contains_refl, fun _ _ _ => contains_trans, fun _ _ => contains_antisymm,
    fun _ _ => exists_covers_iff, fun _ _ => isMoreSpecificOf_iff,
    fun p => checkedMask?_of_le p.length_le⟩
  · by_cases hle : length ≤ 32
    · exact iff_of_true ⟨_, ofAddress_of_le a hle⟩ hle
    · rw [ofAddress_of_not_le a hle]
      exact iff_of_false (fun ⟨_, h⟩ => nomatch h) hle
  · have haround := ofAddress_eq_ok_iff.mp h
    have hlength : p.length = length := UInt8.toNat_inj.mp haround.length_eq
    refine ⟨hlength, fun i hi => ?_, fun i hi => p.bit_network_of_le (hlength ▸ hi)⟩
    have h32 := p.length_le_32
    rw [haround.bit_eq i (by omega), ← hlength, decide_eq_true hi, Bool.and_true]

end Prefix

end RoutePolicy
