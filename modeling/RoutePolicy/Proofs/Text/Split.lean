import RoutePolicy.Text.Split

/-!
# Splitting a text and putting it together again

* `splitFirst_eq_none_iff` — only a text without the character has no first occurrence of it;
* `splitAll_append`, `splitAll_of_notMem` — splitting what was put together from parts;
* `intercalate_splitAll` — putting together what was split.
-/

set_option autoImplicit false

namespace RoutePolicy

variable {sep : Char}

theorem splitFirst_of_notMem {a : List Char} (h : sep ∉ a) : splitFirst sep a = none := by
  induction a with
  | nil => rfl
  | cons c rest ih =>
    rw [List.mem_cons, not_or] at h
    rw [splitFirst, if_neg (Ne.symm h.1), ih h.2]
    rfl

theorem splitFirst_eq_none_iff {cs : List Char} : splitFirst sep cs = none ↔ sep ∉ cs := by
  refine ⟨fun h hsep => ?_, splitFirst_of_notMem⟩
  induction cs with
  | nil => cases hsep
  | cons c rest ih =>
    rw [splitFirst] at h
    split at h
    · cases h
    · rename_i hc
      have hrest : sep ∈ rest := (List.mem_cons.mp hsep).resolve_left (Ne.symm hc)
      exact ih (Option.map_eq_none_iff.mp h) hrest

theorem splitAll_of_notMem {a : List Char} (h : sep ∉ a) : splitAll sep a = [a] := by
  induction a with
  | nil => rfl
  | cons c rest ih =>
    rw [List.mem_cons, not_or] at h
    obtain ⟨hc, hrest⟩ := h
    rw [splitAll, if_neg (Ne.symm hc), ih hrest]

theorem splitAll_append {a b : List Char} (h : sep ∉ a) :
    splitAll sep (a ++ sep :: b) = a :: splitAll sep b := by
  induction a with
  | nil => rw [List.nil_append, splitAll, if_pos rfl]
  | cons c rest ih =>
    rw [List.mem_cons, not_or] at h
    obtain ⟨hc, hrest⟩ := h
    rw [List.cons_append, splitAll, if_neg (Ne.symm hc), ih hrest]

theorem splitAll_ne_nil (sep : Char) (cs : List Char) : splitAll sep cs ≠ [] := by
  cases cs with
  | nil => exact List.cons_ne_nil _ _
  | cons c rest =>
    rw [splitAll]
    split
    · exact List.cons_ne_nil _ _
    · split <;> exact List.cons_ne_nil _ _

theorem intercalate_splitAll (sep : Char) (cs : List Char) :
    List.intercalate [sep] (splitAll sep cs) = cs := by
  induction cs with
  | nil => rfl
  | cons c rest ih =>
    rw [splitAll]
    cases hparts : splitAll sep rest with
    | nil => exact absurd hparts (splitAll_ne_nil sep rest)
    | cons part parts =>
      rw [hparts] at ih
      split
      · rename_i hc
        simp [List.intercalate, ← ih, hc]
      · cases parts with
        | nil => simpa [List.intercalate] using ih
        | cons part' parts => simp [List.intercalate, ← ih]

end RoutePolicy
