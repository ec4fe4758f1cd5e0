import RoutePolicy.Text.Blank
import RoutePolicy.Text.Decimal

/-!
# Reading a decimal numeral undoes writing it

* `Decimal.readDigits_digits`, `Decimal.read_digits` — a numeral gives its number, when that is in
  range;
* `Decimal.digits_injective` — so distinct numbers have distinct numerals;
* `Decimal.isDigit_of_mem_digits`, `Decimal.notMem_digits` — what occurs in a numeral.
-/

set_option autoImplicit false

namespace RoutePolicy

namespace Decimal

theorem digit?_of_isDigit {c : Char} (h : c.isDigit = true) :
    digit? c = some (c.toNat - '0'.toNat) := by
  have hrange : '0' ≤ c ∧ c ≤ '9' := by
    simp only [Char.isDigit, Bool.and_eq_true, decide_eq_true_eq] at h
    exact h
  rw [digit?, if_pos hrange]

theorem isDigit_of_mem_digits {n : Nat} {c : Char} (h : c ∈ digits n) : c.isDigit = true :=
  Nat.isDigit_of_mem_toDigits (by decide) (by decide) h

theorem digits_ne_nil (n : Nat) : digits n ≠ [] :=
  List.length_pos_iff.mp Nat.length_toDigits_pos

/-- A character that is no digit does not occur in a numeral. -/
theorem notMem_digits {c : Char} (h : c.isDigit = false) (n : Nat) : c ∉ digits n := by
  intro hmem
  rw [isDigit_of_mem_digits hmem] at h
  cases h

theorem le_ofDigitChars (ds : List Char) (acc : Nat) : acc ≤ Nat.ofDigitChars 10 ds acc := by
  induction ds generalizing acc with
  | nil => exact Nat.le_refl acc
  | cons d ds ih =>
    have hrest := ih (10 * acc + (d.toNat - '0'.toNat))
    have hstep : Nat.ofDigitChars 10 (d :: ds) acc =
        Nat.ofDigitChars 10 ds (10 * acc + (d.toNat - '0'.toNat)) := rfl
    omega

/-- Digits are read as the number they stand for, when that is in range. -/
theorem readDigits_eq_ok {limit acc : Nat} {ds : List Char} (hds : ∀ c ∈ ds, c.isDigit = true)
    (hlimit : Nat.ofDigitChars 10 ds acc ≤ limit) :
    readDigits limit acc ds = .ok (Nat.ofDigitChars 10 ds acc) := by
  induction ds generalizing acc with
  | nil => rfl
  | cons d ds ih =>
    obtain ⟨hd, hrest⟩ := List.forall_mem_cons.mp hds
    have hstep : Nat.ofDigitChars 10 (d :: ds) acc =
        Nat.ofDigitChars 10 ds (acc * 10 + (d.toNat - '0'.toNat)) := by
      rw [Nat.mul_comm acc 10]
      rfl
    rw [hstep] at hlimit ⊢
    have hle := le_ofDigitChars ds (acc * 10 + (d.toNat - '0'.toNat))
    have hin : ¬ limit < acc * 10 + (d.toNat - '0'.toNat) := by omega
    rw [readDigits, digit?_of_isDigit hd]
    simp only [if_neg hin]
    exact ih hrest hlimit

theorem ofDigitChars_digits (n : Nat) : Nat.ofDigitChars 10 (digits n) 0 = n :=
  Nat.ofDigitChars_toDigits (by decide) (by decide)

/-- The digits of a numeral give its number. -/
theorem readDigits_digits {limit n : Nat} (h : n ≤ limit) :
    readDigits limit 0 (digits n) = .ok n := by
  have hvalue := ofDigitChars_digits n
  rw [readDigits_eq_ok (fun c hc => isDigit_of_mem_digits hc) (by omega), hvalue]

/-- A numeral gives its number. -/
theorem read_digits {limit n : Nat} (h : n ≤ limit) : read limit (digits n) = .ok n := by
  rw [← readDigits_digits h]
  cases hdigits : digits n with
  | nil => exact absurd hdigits (digits_ne_nil n)
  | cons c cs =>
    have hc : c ≠ '+' := by
      rintro rfl
      exact notMem_digits (by decide) n (hdigits ▸ List.mem_cons_self)
    unfold read
    split
    · rename_i hnil
      cases hnil
    · rename_i hplus
      cases hplus
      exact absurd rfl hc
    · rename_i rest _ hplus
      cases hplus
      exact absurd rfl hc
    · rfl

theorem digits_injective {n m : Nat} (h : digits n = digits m) : n = m := by
  rw [← ofDigitChars_digits n, h, ofDigitChars_digits m]

end Decimal

/-! ## Blanks -/

theorem isBlank_of_isDigit {c : Char} (h : c.isDigit = true) : isBlank c = false := by
  have hrange : 48 ≤ c.toNat ∧ c.toNat ≤ 57 := by
    simp only [Char.isDigit, Bool.and_eq_true, decide_eq_true_eq] at h
    exact h
  have hcode : c.toNat ∉ blankCodes := by
    simp only [blankCodes, List.mem_cons, List.not_mem_nil, or_false]
    omega
  simpa [isBlank] using hcode

/-- A text without blanks is trimmed already. -/
theorem trimBlank_of_forall {cs : List Char} (h : ∀ c ∈ cs, isBlank c = false) :
    trimBlank cs = cs := by
  have hdrop : ∀ ds : List Char, (∀ c ∈ ds, isBlank c = false) → ds.dropWhile isBlank = ds := by
    intro ds hds
    cases ds with
    | nil => rfl
    | cons d ds => exact List.dropWhile_cons_of_neg (by simp [hds d List.mem_cons_self])
  rw [trimBlank, hdrop cs h, hdrop cs.reverse (fun c hc => h c (List.mem_reverse.mp hc)),
    List.reverse_reverse]

theorem trimBlank_digits (n : Nat) : trimBlank (Decimal.digits n) = Decimal.digits n :=
  trimBlank_of_forall fun _ hc => isBlank_of_isDigit (Decimal.isDigit_of_mem_digits hc)

end RoutePolicy
