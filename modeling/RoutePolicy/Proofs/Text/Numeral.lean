import Mathlib.Data.List.TakeWhile
import RoutePolicy.Proofs.Text.Decimal

/-!
# Which texts are decimal numerals

* `Decimal.Numeral` — the grammar: an optional plus sign and one or more digits;
* `Decimal.readDigits_eq` — reading digits in one equation: the first of overflow and a wrong
  character decides;
* `Decimal.readDigits_eq_ok_iff` — exactly digits in range are read;
* `Decimal.read_eq_ok_iff` — exactly the numerals of numbers up to the limit are read;
* `Decimal.read_eq_error_iff` — why any other text is not.
-/

set_option autoImplicit false

namespace RoutePolicy

namespace Decimal

/-- `Numeral cs n`: the text is an optional plus sign and one or more digits that stand for `n`. -/
inductive Numeral : List Char → Nat → Prop where
  | plain {ds : List Char} (hne : ds ≠ []) (hds : ∀ c ∈ ds, c.isDigit = true) :
    Numeral ds (Nat.ofDigitChars 10 ds 0)
  | signed {ds : List Char} (hne : ds ≠ []) (hds : ∀ c ∈ ds, c.isDigit = true) :
    Numeral ('+' :: ds) (Nat.ofDigitChars 10 ds 0)

/-- The text without a plus sign in front. -/
def unsigned : List Char → List Char
  | '+' :: rest => rest
  | cs => cs

/-- What the digits stand for that a text starts with, behind the plus sign if there is one. -/
def leading (cs : List Char) : Nat := Nat.ofDigitChars 10 ((unsigned cs).takeWhile Char.isDigit) 0

/-- Why a text is not the numeral of a number up to `limit`: it is empty, or it starts with digits
that exceed the limit already, or, when neither is so, it is no numeral. -/
def Unreadable (limit : Nat) (cs : List Char) : Cause → Prop
  | .empty => cs = []
  | .tooLarge => limit < leading cs
  | .invalidDigit => cs ≠ [] ∧ leading cs ≤ limit ∧ ∀ n, ¬ Numeral cs n

variable {limit n : Nat} {cs : List Char}

theorem digit?_of_not_isDigit {c : Char} (h : c.isDigit = false) : digit? c = none := by
  have hrange : ¬ ('0' ≤ c ∧ c ≤ '9') := by
    intro hrange
    have hdigit : c.isDigit = true := by
      simp only [Char.isDigit, Bool.and_eq_true, decide_eq_true_eq]
      exact hrange
    rw [h] at hdigit
    cases hdigit
  rw [digit?, if_neg hrange]

/-- Digits are read up to the first other character; the number must not exceed the limit by then. -/
theorem readDigits_eq {acc : Nat} (hacc : acc ≤ limit) (ds : List Char) :
    readDigits limit acc ds =
      if limit < Nat.ofDigitChars 10 (ds.takeWhile Char.isDigit) acc then .error .tooLarge
      else if ds.all Char.isDigit then .ok (Nat.ofDigitChars 10 (ds.takeWhile Char.isDigit) acc)
      else .error .invalidDigit := by
  induction ds generalizing acc with
  | nil =>
    have hin : ¬ limit < Nat.ofDigitChars 10 [] acc := Nat.not_lt.mpr hacc
    rw [List.takeWhile_nil, if_neg hin]
    rfl
  | cons c ds ih =>
    cases hc : c.isDigit with
    | false =>
      have hin : ¬ limit < Nat.ofDigitChars 10 [] acc := Nat.not_lt.mpr hacc
      rw [readDigits, digit?_of_not_isDigit hc, List.takeWhile_cons_of_neg (by simp [hc]),
        if_neg hin, List.all_cons, hc]
      rfl
    | true =>
      have hstep : Nat.ofDigitChars 10 (c :: ds.takeWhile Char.isDigit) acc =
          Nat.ofDigitChars 10 (ds.takeWhile Char.isDigit) (acc * 10 + (c.toNat - '0'.toNat)) := by
        rw [Nat.mul_comm acc 10]
        rfl
      rw [readDigits, digit?_of_isDigit hc, List.takeWhile_cons_of_pos hc, hstep, List.all_cons, hc,
        Bool.true_and]
      dsimp only
      split
      · rename_i hover
        -- what follows only makes the number larger
        have hle := le_ofDigitChars (ds.takeWhile Char.isDigit) (acc * 10 + (c.toNat - '0'.toNat))
        rw [if_pos (by omega)]
      · rename_i hfits
        exact ih (Nat.not_lt.mp hfits)

/-- Digits are read as a number exactly if they are digits and the number is in range. -/
theorem readDigits_eq_ok_iff {acc : Nat} (hacc : acc ≤ limit) {ds : List Char} :
    readDigits limit acc ds = .ok n ↔
      (∀ c ∈ ds, c.isDigit = true) ∧ Nat.ofDigitChars 10 ds acc = n ∧ n ≤ limit := by
  constructor
  · intro h
    rw [readDigits_eq hacc] at h
    split at h
    · cases h
    · rename_i hfits
      split at h
      · rename_i hall
        have hds : ∀ c ∈ ds, c.isDigit = true := List.all_eq_true.mp hall
        rw [List.takeWhile_eq_self_iff.mpr hds] at h hfits
        cases h
        exact ⟨hds, rfl, Nat.not_lt.mp hfits⟩
      · cases h
  · rintro ⟨hds, rfl, hle⟩
    exact readDigits_eq_ok hds hle

theorem unsigned_of_isDigit {ds : List Char} (hds : ∀ c ∈ ds, c.isDigit = true) :
    unsigned ds = ds := by
  unfold unsigned
  split
  · have hplus := hds '+' List.mem_cons_self
    exact absurd hplus (by decide)
  · rfl

theorem unsigned_cases (cs : List Char) : '+' :: unsigned cs = cs ∨ unsigned cs = cs := by
  unfold unsigned
  split
  · exact .inl rfl
  · exact .inr rfl

theorem leading_of_isDigit (hds : ∀ c ∈ unsigned cs, c.isDigit = true) :
    leading cs = Nat.ofDigitChars 10 (unsigned cs) 0 := by
  rw [leading, List.takeWhile_eq_self_iff.mpr hds]

theorem numeral_iff : Numeral cs n ↔
    unsigned cs ≠ [] ∧ (∀ c ∈ unsigned cs, c.isDigit = true) ∧ leading cs = n := by
  constructor
  · rintro (⟨hne, hds⟩ | ⟨hne, hds⟩)
    · have hself := unsigned_of_isDigit hds
      rw [leading_of_isDigit (by rwa [hself]), hself]
      exact ⟨hne, hds, rfl⟩
    · exact ⟨hne, hds, leading_of_isDigit hds⟩
  · rintro ⟨hne, hds, rfl⟩
    rw [leading_of_isDigit hds]
    rcases unsigned_cases cs with hplus | hself
    · have hnumeral := Numeral.signed hne hds
      rwa [hplus] at hnumeral
    · have hnumeral := Numeral.plain hne hds
      rwa [hself] at hnumeral ⊢

/-- Reading in one equation, in the order in which the causes are found. -/
theorem read_eq (limit : Nat) (cs : List Char) :
    read limit cs =
      if cs = [] then .error .empty
      else if limit < leading cs then .error .tooLarge
      else if unsigned cs ≠ [] ∧ (unsigned cs).all Char.isDigit then .ok (leading cs)
      else .error .invalidDigit := by
  have hdigits : ∀ ds, unsigned cs = ds → ds ≠ [] → readDigits limit 0 ds =
      if limit < leading cs then .error .tooLarge
      else if unsigned cs ≠ [] ∧ (unsigned cs).all Char.isDigit then .ok (leading cs)
      else .error .invalidDigit := by
    rintro ds rfl hne
    rw [readDigits_eq (Nat.zero_le limit), leading]
    simp only [ne_eq, hne, not_false_eq_true, true_and]
  unfold read
  split
  · rfl
  · simp [unsigned, leading]
  · rename_i rest hrest
    have hne : rest ≠ [] := fun h => hrest (h ▸ rfl)
    rw [if_neg (List.cons_ne_nil _ _)]
    exact hdigits rest rfl hne
  · rename_i hempty _ hplus
    rw [if_neg hempty]
    rcases unsigned_cases cs with hsigned | hself
    · exact absurd hsigned.symm (hplus _)
    · exact hdigits cs hself hempty

/-- Exactly the numerals of numbers up to the limit are read. -/
theorem read_eq_ok_iff : read limit cs = .ok n ↔ Numeral cs n ∧ n ≤ limit := by
  rw [read_eq, numeral_iff, ← List.all_eq_true]
  split
  · rename_i hempty
    subst hempty
    simp [unsigned]
  · split
    · rename_i hover
      refine iff_of_false (fun h => nomatch h) ?_
      rintro ⟨⟨-, -, rfl⟩, hle⟩
      omega
    · split
      · rename_i hover hdigits
        rw [Except.ok.injEq]
        constructor
        · rintro rfl
          exact ⟨⟨hdigits.1, hdigits.2, rfl⟩, Nat.not_lt.mp hover⟩
        · rintro ⟨⟨-, -, hn⟩, -⟩
          exact hn
      · rename_i hdigits
        refine iff_of_false (fun h => nomatch h) ?_
        rintro ⟨⟨hne, hall, -⟩, -⟩
        exact hdigits ⟨hne, hall⟩

/-- A text is refused for the cause that applies to it. -/
theorem read_eq_error_iff {cause : Cause} :
    read limit cs = .error cause ↔ Unreadable limit cs cause := by
  have hnumeral : (∀ n, ¬ Numeral cs n) ↔ ¬ (unsigned cs ≠ [] ∧ (unsigned cs).all Char.isDigit) := by
    simp [numeral_iff]
  constructor
  · intro h
    rw [read_eq] at h
    split at h
    · rename_i hempty
      cases h
      exact hempty
    · rename_i hempty
      split at h
      · rename_i hover
        cases h
        exact hover
      · rename_i hover
        split at h
        · cases h
        · rename_i hdigits
          cases h
          exact ⟨hempty, Nat.not_lt.mp hover, hnumeral.mpr hdigits⟩
  · intro h
    rw [read_eq]
    cases cause with
    | empty => exact if_pos h
    | tooLarge =>
      have hempty : cs ≠ [] := by
        rintro rfl
        exact Nat.not_lt_zero limit h
      rw [if_neg hempty]
      exact if_pos h
    | invalidDigit =>
      obtain ⟨hempty, hfits, hnot⟩ := h
      rw [if_neg hempty, if_neg (Nat.not_lt.mpr hfits), if_neg (hnumeral.mp hnot)]

end Decimal

end RoutePolicy
