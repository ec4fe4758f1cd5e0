/-!
# Splitting text at a character

* `splitFirst` — the two sides of the first occurrence of a character;
* `splitAll` — the parts between all occurrences;
* `lines` — the lines of printed text.
-/

set_option autoImplicit false

namespace RoutePolicy

/-- The text before and after the first `sep`, or nothing when there is none. -/
def splitFirst (sep : Char) : List Char → Option (List Char × List Char)
  | [] => none
  | c :: rest =>
    if c = sep then some ([], rest)
    else (splitFirst sep rest).map fun p => (c :: p.1, p.2)

/-- The parts between the occurrences of `sep`; there is always at least one. -/
def splitAll (sep : Char) : List Char → List (List Char)
  | [] => [[]]
  | c :: rest =>
    if c = sep then [] :: splitAll sep rest
    else match splitAll sep rest with
      | [] => [[c]]
      | part :: parts => (c :: part) :: parts

theorem splitFirst_eq_some {sep : Char} {cs a b : List Char} (h : splitFirst sep cs = some (a, b)) :
    cs = a ++ sep :: b ∧ sep ∉ a := by
  induction cs generalizing a b with
  | nil => simp [splitFirst] at h
  | cons c rest ih =>
    rw [splitFirst] at h
    split at h
    · rename_i e
      simp only [Option.some.injEq, Prod.mk.injEq] at h
      obtain ⟨rfl, rfl⟩ := h
      simp [e]
    · rename_i e
      obtain ⟨⟨a', b'⟩, hp, hq⟩ := Option.map_eq_some_iff.mp h
      simp only [Prod.mk.injEq] at hq
      obtain ⟨rfl, rfl⟩ := hq
      obtain ⟨h1, h2⟩ := ih hp
      exact ⟨by simp [h1], by simp [h2, Ne.symm e]⟩

theorem splitFirst_append {sep : Char} {a b : List Char} (h : sep ∉ a) :
    splitFirst sep (a ++ sep :: b) = some (a, b) := by
  induction a with
  | nil => simp [splitFirst]
  | cons c rest ih =>
    simp only [List.mem_cons, not_or] at h
    simp [splitFirst, Ne.symm h.1, ih h.2]

/-- The line that is left when the carriage return before its line feed is taken away. -/
def dropReturn (line : List Char) : List Char :=
  if line.getLast? = some '\r' then line.dropLast else line

/-- The lines of a text, each ended by a line feed with or without a carriage return before it; the
last one may lack its end. -/
def lines (text : String) : List String :=
  let parts := splitAll '\n' text.toList
  let last := parts.getLast?.getD []
  (parts.dropLast.map dropReturn ++ if last.isEmpty then [] else [last]).map String.ofList

end RoutePolicy
