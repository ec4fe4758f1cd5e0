import RoutePolicy.Failure
import RoutePolicy.Proofs.Route.Community
import RoutePolicy.Proofs.Text.Halves
import RoutePolicy.Proofs.Text.Numeral

/-!
# Which texts are communities

* `Community.IsText` — the grammar: two numerals of at most 65535 with a colon between them;
* `Community.parse?_eq_some_iff` — exactly those texts are read;
* `Community.read_accepts` — every other text is refused with one message, and reading undoes
  writing.
-/

set_option autoImplicit false

namespace RoutePolicy

namespace Community

open Decimal

/-- Whether the halves of a text at its first colon are numerals of `n` and `m`, both up to 65535. -/
def IsText (text : String) (n m : Nat) : Prop :=
  ∃ front back, Halves ':' text front back ∧ (Numeral front n ∧ n ≤ 65535) ∧
    (Numeral back m ∧ m ≤ 65535)

variable {text : String} {c : Community}

theorem readHalf?_eq_some_iff {cs : List Char} {half : UInt16} :
    readHalf? cs = some half ↔
      ∃ n, (Numeral (trimBlank cs) n ∧ n ≤ 65535) ∧ UInt16.ofNat n = half := by
  rw [readHalf?]
  cases hread : Decimal.read 65535 (trimBlank cs) with
  | ok n =>
    rw [Option.some.injEq]
    constructor
    · intro h
      exact ⟨n, read_eq_ok_iff.mp hread, h⟩
    · rintro ⟨n', hn', h⟩
      rw [read_eq_ok_iff.mpr hn', Except.ok.injEq] at hread
      rw [← hread, h]
  | error cause =>
    constructor
    · intro h
      cases h
    · rintro ⟨n, hn, -⟩
      rw [read_eq_ok_iff.mpr hn] at hread
      cases hread

/-- Exactly the texts of the grammar are read. -/
theorem parse?_eq_some_iff :
    parse? text = some c ↔ ∃ n m, IsText text n m ∧ c.number.toNat = n * 65536 + m := by
  simp only [parse?, Option.bind_eq_bind, Option.bind_eq_some_iff]
  constructor
  · rintro ⟨⟨front, back⟩, hsplit, half, hhalf, half', hhalf', hc⟩
    have hhalves := halves_iff.mpr ⟨front, back, hsplit, rfl, rfl⟩
    obtain ⟨n, hn, rfl⟩ := readHalf?_eq_some_iff.mp hhalf
    obtain ⟨m, hm, rfl⟩ := readHalf?_eq_some_iff.mp hhalf'
    cases hc
    exact ⟨n, m, ⟨_, _, hhalves, hn, hm⟩, number_ofHalves hn.2 hm.2⟩
  · rintro ⟨n, m, ⟨_, _, hhalves, hn, hm⟩, hnumber⟩
    obtain ⟨front, back, hsplit, rfl, rfl⟩ := halves_iff.mp hhalves
    have hc : ofHalves (UInt16.ofNat n) (UInt16.ofNat m) = c :=
      eq_of_number_eq ((number_ofHalves hn.2 hm.2).trans hnumber.symm)
    exact ⟨(front, back), hsplit, _, readHalf?_eq_some_iff.mpr ⟨n, hn, rfl⟩, _,
      readHalf?_eq_some_iff.mpr ⟨m, hm, rfl⟩, congrArg some hc⟩

theorem read_of_isText {n m : Nat} (h : IsText text n m) :
    ∃ c, read text = .ok c ∧ c.number.toNat = n * 65536 + m := by
  have hbounds := h
  obtain ⟨-, -, -, ⟨-, hn⟩, -, hm⟩ := hbounds
  have hnumber := number_ofHalves hn hm
  have hparse := parse?_eq_some_iff.mpr ⟨n, m, h, hnumber⟩
  exact ⟨_, by rw [read, hparse], hnumber⟩

theorem read_of_not_isText (h : ¬ ∃ n m, IsText text n m) :
    read text = .error (.configuration (.badCommunity text)) := by
  have hparse : parse? text = none := by
    refine Option.eq_none_iff_forall_ne_some.mpr fun c hc => ?_
    obtain ⟨n, m, htext, -⟩ := parse?_eq_some_iff.mp hc
    exact h ⟨n, m, htext⟩
  rw [read, hparse]

theorem exists_read_iff : (∃ c, read text = .ok c) ↔ ∃ n m, IsText text n m := by
  by_cases h : ∃ n m, IsText text n m
  · obtain ⟨n, m, htext⟩ := h
    obtain ⟨c, hread, -⟩ := read_of_isText htext
    exact iff_of_true ⟨c, hread⟩ ⟨n, m, htext⟩
  · rw [read_of_not_isText h]
    exact iff_of_false (fun ⟨_, hread⟩ => nomatch hread) h

/-- **Reading communities.**  A text is read as a community exactly if two numerals up to 65535 stand
before and behind its first colon, with blanks around them, and the number is then
`asn * 65536 + value`; for any other text the failure quotes it as it is.  Reading the text form of a community gives the
community, so distinct communities have distinct text forms. -/
theorem read_accepts :
    (∀ text, (∃ c, read text = .ok c) ↔ ∃ asn value, IsText text asn value) ∧
    (∀ text asn value, IsText text asn value →
      ∃ c, read text = .ok c ∧ c.number.toNat = asn * 65536 + value) ∧
    (∀ text, (¬ ∃ asn value, IsText text asn value) →
      ∃ error, read text = .error (.configuration error) ∧
        error.reason = "invalid community '" ++ text ++ "', expected 'asn:value'") ∧
    (∀ c, read c.text = .ok c) ∧
    ∀ c d : Community, c.text = d.text ↔ c = d := by
  refine ⟨fun _ => exists_read_iff, fun _ _ _ => read_of_isText, fun text h => ?_, fun c => ?_,
    fun c d => ⟨text_injective, congrArg text⟩⟩
  · exact ⟨.badCommunity text, read_of_not_isText h, rfl⟩
  · rw [read, parse?_text]

/-- A second colon belongs to the value, which is no numeral then. -/
example : parse? "1:2:3" = none := by decide +kernel

end Community

end RoutePolicy
