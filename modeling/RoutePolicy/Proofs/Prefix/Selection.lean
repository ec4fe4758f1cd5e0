import RoutePolicy.Prefix.Range
import RoutePolicy.Proofs.Prefix.Addresses

/-!
# Which prefixes ranges and sets select

* `PrefixRange.selects_exact` — an exact range selects its base and nothing else, because prefixes
  are canonical;
* `PrefixSet.contains_ofPrefixes` — the set of listed prefixes contains just those;
* `PrefixSet.contains_addAll` — adding ranges adds what they select, whether or not one of them was
  there already.
-/

set_option autoImplicit false

namespace RoutePolicy

namespace PrefixRange

theorem selects_iff {r : PrefixRange} {q : Prefix} :
    r.selects q = true ↔ r.base.contains q = true ∧ r.minLength ≤ q.length ∧
      q.length ≤ r.maxLength := by
  simp [selects, and_assoc]

theorem selects_exact (p q : Prefix) : (exact p).selects q = true ↔ q = p := by
  rw [selects_iff]
  constructor
  · rintro ⟨hcontains, -, hle⟩
    have hcovers := (Prefix.contains_iff.mp hcontains).2
    have hback : q.contains p = true :=
      Prefix.contains_of_covers q.covers_network hcovers (UInt8.le_iff_toNat_le.mp hle)
    exact Prefix.contains_antisymm hback hcontains
  · rintro rfl
    exact ⟨q.contains_refl, UInt8.le_refl _, UInt8.le_refl _⟩

end PrefixRange

namespace PrefixSet

theorem contains_ofPrefixes (ps : List Prefix) (q : Prefix) :
    (ofPrefixes ps).contains q = ps.contains q := by
  rw [Bool.eq_iff_iff]
  simp [contains, ofPrefixes, PrefixRange.selects_exact]

theorem contains_add (s : PrefixSet) (r : PrefixRange) (q : Prefix) :
    (s.add r).contains q = (s.contains q || r.selects q) := by
  unfold add
  split
  · rename_i hr
    cases hq : r.selects q with
    | false => simp
    | true =>
      have hs : s.contains q = true := List.any_eq_true.mpr ⟨r, hr, hq⟩
      simp [hs]
  · simp [contains]

theorem contains_addAll (rs : List PrefixRange) (s : PrefixSet) (q : Prefix) :
    (rs.foldl add s).contains q = (s.contains q || rs.any (·.selects q)) := by
  induction rs generalizing s with
  | nil => simp
  | cons r rs ih => rw [List.foldl_cons, ih, contains_add, List.any_cons, Bool.or_assoc]

end PrefixSet

end RoutePolicy
