import Mathlib.Data.List.TakeWhile
import RoutePolicy.Proofs.Text.Split
import RoutePolicy.Text.Blank

/-!
# The two halves of a text

* `Trimmed` — a text without the blanks at its ends, said without a procedure;
* `trimmed_iff` — removing the blanks from both ends gives that text;
* `Halves` — what stands before and behind the first occurrence of a character, without blanks;
* `halves_iff` — splitting and trimming gives the halves.
-/

set_option autoImplicit false

namespace RoutePolicy

/-- `Trimmed cs ds`: there are only blanks around `ds` in `cs`, and none at its ends. -/
structure Trimmed (cs ds : List Char) : Prop where
  around : ∃ before behind, cs = before ++ (ds ++ behind) ∧ (∀ c ∈ before, isBlank c = true) ∧
    ∀ c ∈ behind, isBlank c = true
  head : ∀ c, ds.head? = some c → isBlank c = false
  last : ∀ c, ds.getLast? = some c → isBlank c = false

theorem isBlank_of_head?_dropWhile {cs : List Char} {c : Char}
    (h : (cs.dropWhile isBlank).head? = some c) : isBlank c = false := by
  have hnot := List.head?_dropWhile_not isBlank cs
  rw [h] at hnot
  exact hnot

theorem dropWhile_isBlank_of_head {cs : List Char} (h : ∀ c, cs.head? = some c → isBlank c = false) :
    cs.dropWhile isBlank = cs := by
  cases cs with
  | nil => rfl
  | cons c rest => exact List.dropWhile_cons_of_neg (by simp [h c rfl])

theorem trimmed_trimBlank (cs : List Char) : Trimmed cs (trimBlank cs) := by
  have hbehind : cs.dropWhile isBlank =
      trimBlank cs ++ ((cs.dropWhile isBlank).reverse.takeWhile isBlank).reverse := by
    rw [trimBlank, ← List.reverse_append, List.takeWhile_append_dropWhile, List.reverse_reverse]
  refine ⟨⟨cs.takeWhile isBlank, ((cs.dropWhile isBlank).reverse.takeWhile isBlank).reverse, ?_, ?_,
    ?_⟩, ?_, ?_⟩
  · rw [← hbehind, List.takeWhile_append_dropWhile]
  · exact List.all_eq_true.mp List.all_takeWhile
  · intro c hc
    exact List.all_eq_true.mp List.all_takeWhile c (List.mem_reverse.mp hc)
  · intro c hc
    have hhead : (cs.dropWhile isBlank).head? = some c := by
      rw [hbehind, List.head?_append, hc]
      rfl
    exact isBlank_of_head?_dropWhile hhead
  · intro c hc
    rw [trimBlank, List.getLast?_reverse] at hc
    exact isBlank_of_head?_dropWhile hc

/-- Removing the blanks from both ends gives the text without them, and nothing else is that. -/
theorem trimmed_iff {cs ds : List Char} : Trimmed cs ds ↔ trimBlank cs = ds := by
  constructor
  · rintro ⟨⟨before, behind, rfl, hbefore, hbehind⟩, hhead, hlast⟩
    rw [trimBlank, List.dropWhile_append_of_pos hbefore]
    cases ds with
    | nil => rw [List.nil_append, List.dropWhile_eq_nil_iff.mpr hbehind]; rfl
    | cons d ds =>
      have hd : ∀ c, (d :: ds ++ behind).head? = some c → isBlank c = false := hhead
      have hblanks : ∀ c ∈ behind.reverse, isBlank c = true := fun c hc =>
        hbehind c (List.mem_reverse.mp hc)
      have hend : ∀ c, (d :: ds).reverse.head? = some c → isBlank c = false := by
        rw [List.head?_reverse]
        exact hlast
      rw [dropWhile_isBlank_of_head hd, List.reverse_append, List.dropWhile_append_of_pos hblanks,
        dropWhile_isBlank_of_head hend, List.reverse_reverse]
  · rintro rfl
    exact trimmed_trimBlank cs

/-- `Halves sep text a b`: without blanks around them, `a` stands before the first `sep` of the text
and `b` behind it. -/
def Halves (sep : Char) (text : String) (a b : List Char) : Prop :=
  ∃ front back, text.toList = front ++ sep :: back ∧ sep ∉ front ∧ Trimmed front a ∧ Trimmed back b

theorem halves_iff {sep : Char} {text : String} {a b : List Char} :
    Halves sep text a b ↔ ∃ front back, splitFirst sep text.toList = some (front, back) ∧
      trimBlank front = a ∧ trimBlank back = b := by
  constructor
  · rintro ⟨front, back, hsplit, hfirst, ha, hb⟩
    exact ⟨front, back, hsplit ▸ splitFirst_append hfirst, trimmed_iff.mp ha, trimmed_iff.mp hb⟩
  · rintro ⟨front, back, hsplit, ha, hb⟩
    obtain ⟨htext, hfirst⟩ := splitFirst_eq_some hsplit
    exact ⟨front, back, htext, hfirst, trimmed_iff.mpr ha, trimmed_iff.mpr hb⟩

end RoutePolicy
