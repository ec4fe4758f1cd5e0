import RoutePolicy.Configuration.Basic
import RoutePolicy.Proofs.Prefix.Selection

/-!
# What ranges and unions of ranges mean

* `MatchType.Admits` — what each way to match asks of a prefix, in terms of containment and length;
* `RouteFilter.selects_range` — the range of a filter selects just that;
* `PrefixSet.exists_added` — adding ranges one by one puts those that are new behind the others;
* `PrefixSet.selection` — all kinds of range and the union of sets.
-/

set_option autoImplicit false

namespace RoutePolicy

namespace PrefixRange

variable {p c : Prefix} {minLength maxLength : UInt8}

/-- Beyond 32 an upper bound does not matter. -/
theorem le_min_iff (c : Prefix) : c.length ≤ min maxLength 32 ↔ c.length ≤ maxLength := by
  have hlength := c.length_le
  show c.length ≤ (if maxLength ≤ 32 then maxLength else 32) ↔ c.length ≤ maxLength
  split
  · rfl
  · rename_i hbeyond
    have hle : 32 ≤ maxLength := UInt8.le_of_lt (UInt8.not_le.mp hbeyond)
    exact iff_of_true hlength (UInt8.le_trans hlength hle)

/-- Adding one to the length of a prefix does not overflow. -/
theorem toNat_length_add_one (p : Prefix) : (p.length + 1).toNat = p.length.toNat + 1 := by
  have hlength := p.length_le_32
  rw [UInt8.toNat_add]
  exact Nat.mod_eq_of_lt (by show p.length.toNat + 1 < 256; omega)

theorem length_le_of_contains (h : p.contains c = true) : p.length ≤ c.length :=
  UInt8.le_iff_toNat_le.mpr (Prefix.contains_iff.mp h).1

theorem selects_orLonger : (orLonger p).selects c = true ↔ p.contains c = true := by
  rw [selects_iff]
  exact ⟨And.left, fun h => ⟨h, length_le_of_contains h, c.length_le⟩⟩

theorem selects_longer : (longer p).selects c = true ↔ c.isMoreSpecificOf p = true := by
  have hlonger : p.length + 1 ≤ c.length ↔ p.length < c.length := by
    rw [UInt8.le_iff_toNat_le, UInt8.lt_iff_toNat_lt, toNat_length_add_one]
    exact Nat.succ_le_iff
  rw [selects_iff, Prefix.isMoreSpecificOf, Bool.and_eq_true, decide_eq_true_eq]
  constructor
  · rintro ⟨hcontains, hmin, -⟩
    exact ⟨hlonger.mp hmin, hcontains⟩
  · rintro ⟨hlt, hcontains⟩
    exact ⟨hcontains, hlonger.mpr hlt, c.length_le⟩

/-- Nothing lies inside a host prefix but the prefix itself. -/
theorem selects_longer_host (h : p.length = 32) : (longer p).selects c = false := by
  refine Bool.eq_false_iff.mpr fun hselects => ?_
  rw [selects_longer, Prefix.isMoreSpecificOf, Bool.and_eq_true, decide_eq_true_eq, h] at hselects
  exact UInt8.not_le.mpr hselects.1 c.length_le

theorem selects_upTo :
    (upTo p maxLength).selects c = true ↔ p.contains c = true ∧ c.length ≤ maxLength := by
  rw [selects_iff]
  refine and_congr_right fun hcontains => ?_
  exact (and_iff_right (length_le_of_contains hcontains)).trans (le_min_iff c)

theorem selects_lengthRange : (lengthRange p minLength maxLength).selects c = true ↔
    p.contains c = true ∧ minLength ≤ c.length ∧ c.length ≤ maxLength := by
  rw [selects_iff]
  exact and_congr_right fun _ => and_congr_right fun _ => le_min_iff c

end PrefixRange

/-- What a way to match asks of a prefix `c`, given the prefix `p` of the filter. -/
def MatchType.Admits (p c : Prefix) : MatchType → Prop
  | .exact => c = p
  | .orLonger => p.contains c = true
  | .longer => c.isMoreSpecificOf p = true
  | .upTo maxLength => p.contains c = true ∧ c.length ≤ maxLength
  | .lengthRange minLength maxLength =>
    p.contains c = true ∧ minLength ≤ c.length ∧ c.length ≤ maxLength

theorem RouteFilter.selects_range (f : RouteFilter) (c : Prefix) :
    f.range.selects c = true ↔ f.matchType.Admits f.base c := by
  rw [range]
  cases f.matchType with
  | exact => exact PrefixRange.selects_exact f.base c
  | orLonger => exact PrefixRange.selects_orLonger
  | longer => exact PrefixRange.selects_longer
  | upTo maxLength => exact PrefixRange.selects_upTo
  | lengthRange minLength maxLength => exact PrefixRange.selects_lengthRange

namespace PrefixSet

/-- Adding ranges one by one keeps what is there in its place and puts the ranges that are new
behind it, in their order and each of them once. -/
theorem exists_added (rs : List PrefixRange) (s : PrefixSet) :
    ∃ added, (rs.foldl add s).ranges = s.ranges ++ added ∧ added.Sublist rs ∧ added.Nodup ∧
      ∀ r, r ∈ added ↔ r ∈ rs ∧ r ∉ s.ranges := by
  induction rs generalizing s with
  | nil => exact ⟨[], by simp, .slnil, .nil, by simp⟩
  | cons r rs ih =>
    rw [List.foldl_cons, add]
    split
    · rename_i hr
      obtain ⟨added, hranges, hsublist, hnodup, hmem⟩ := ih s
      refine ⟨added, hranges, hsublist.cons r, hnodup, fun r' => ?_⟩
      rw [hmem, List.mem_cons]
      constructor
      · rintro ⟨hrs, hnew⟩
        exact ⟨.inr hrs, hnew⟩
      · rintro ⟨rfl | hrs, hnew⟩
        · exact absurd hr hnew
        · exact ⟨hrs, hnew⟩
    · rename_i hr
      obtain ⟨added, hranges, hsublist, hnodup, hmem⟩ := ih ⟨s.ranges ++ [r]⟩
      have hfresh : r ∉ added := fun h => ((hmem r).mp h).2 (by simp)
      refine ⟨r :: added, by simpa using hranges, hsublist.cons_cons r, List.nodup_cons.mpr ⟨hfresh, hnodup⟩,
        fun r' => ?_⟩
      simp only [List.mem_cons, hmem, List.mem_append, List.not_mem_nil, or_false, not_or]
      by_cases heq : r' = r
      · subst heq
        exact iff_of_true (.inl rfl) ⟨.inl rfl, hr⟩
      · simp only [heq, false_or, not_false_eq_true, and_true]

theorem union_self (s : PrefixSet) : s.union s = s := by
  obtain ⟨added, hranges, -, -, hmem⟩ := exists_added s.ranges s
  have hnone : added = [] := by
    refine List.eq_nil_iff_forall_not_mem.mpr fun r hr => ?_
    obtain ⟨hold, hnew⟩ := (hmem r).mp hr
    exact hnew hold
  rw [hnone, List.append_nil] at hranges
  obtain ⟨ranges⟩ := s
  exact congrArg mk hranges

/-- **Ranges and unions select what their names say.**  An exact range selects its prefix and
nothing else; the others select what the prefix contains, everything, all but itself, or what has a
length between bounds, whatever the bounds are; a filter selects what its way to match admits.  A
union selects what one of the two sets selects, and keeps the first set as it is: behind it stand
the ranges of the second one that are new, each of them once. -/
theorem selection :
    (∀ p c : Prefix,
      ((PrefixRange.exact p).selects c = true ↔ c = p) ∧
      ((PrefixRange.orLonger p).selects c = true ↔ p.contains c = true) ∧
      ((PrefixRange.longer p).selects c = true ↔ c.isMoreSpecificOf p = true) ∧
      (p.length = 32 → (PrefixRange.longer p).selects c = false) ∧
      (PrefixRange.longer p).minLength.toNat = p.length.toNat + 1 ∧
      (∀ m, (PrefixRange.upTo p m).selects c = true ↔ p.contains c = true ∧ c.length ≤ m) ∧
      ∀ a b, (PrefixRange.lengthRange p a b).selects c = true ↔
        p.contains c = true ∧ a ≤ c.length ∧ c.length ≤ b) ∧
    (∀ (f : RouteFilter) c, f.range.selects c = true ↔ f.matchType.Admits f.base c) ∧
    ∀ s t : PrefixSet,
      (∀ c, (s.union t).contains c = true ↔ s.contains c = true ∨ t.contains c = true) ∧
      (∃ added, (s.union t).ranges = s.ranges ++ added ∧ added.Sublist t.ranges ∧ added.Nodup ∧
        ∀ r, r ∈ added ↔ r ∈ t.ranges ∧ r ∉ s.ranges) ∧
      s.union s = s := by
  refine ⟨fun p c => ⟨PrefixRange.selects_exact p c, PrefixRange.selects_orLonger,
    PrefixRange.selects_longer, PrefixRange.selects_longer_host, PrefixRange.toNat_length_add_one p,
    fun _ => PrefixRange.selects_upTo, fun _ _ => PrefixRange.selects_lengthRange⟩,
    RouteFilter.selects_range, fun s t => ⟨fun c => ?_, exists_added t.ranges s, union_self s⟩⟩
  rw [union, contains_addAll, Bool.or_eq_true]
  rfl

end PrefixSet

end RoutePolicy
