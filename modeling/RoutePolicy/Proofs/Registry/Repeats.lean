import RoutePolicy.Proofs.Registry.Refusal

/-!
# Repeated definitions

A derived policy that a registry holds is stored again without a change and without a notice.  So
entries whose policies are all derived can be listed more than once: what comes after the first
occurrence defines the same and reports the same.

* `Registry.Keeps` — a registry that holds a derived policy;
* `Registry.Defined.keeps`, `Registry.Keeps.of_defined` — a policy is held from when it is stored;
* `Registry.defineAll_eraseDups` — entries without their repetitions.
-/

set_option autoImplicit false

namespace RoutePolicy

namespace Registry

variable {r r' : Registry} {p q : Policy} {notices : List Notice}

/-- A derived policy that the registry holds. -/
structure Keeps (r : Registry) (p : Policy) : Prop where
  derived : p.isDerived = true
  held : ∃ stored, r.get? p.name = some stored ∧ stored.same p = true

/-- Storing a policy again changes nothing and reports nothing. -/
theorem Keeps.define_eq (h : r.Keeps p) : r.define p = .ok ([], r) := by
  obtain ⟨stored, hstored, hsame⟩ := h.held
  rw [define, h.derived, hstored]
  simp [hsame]

theorem get?_insert_self (hfree : r.get? p.name = none) : (r.insert p).get? p.name = some p :=
  get?_eq_some_iff.mpr ⟨(mem_insert_iff hfree).mpr (.inr rfl), rfl⟩

theorem get?_insert_of_some {name : String} {stored : Policy} (hfree : r.get? p.name = none)
    (h : r.get? name = some stored) : (r.insert p).get? name = some stored := by
  obtain ⟨hmem, hname⟩ := get?_eq_some_iff.mp h
  exact get?_eq_some_iff.mpr ⟨(mem_insert_iff hfree).mpr (.inl hmem), hname⟩

/-- A derived policy is held once it is stored. -/
theorem Defined.keeps (h : Defined r p r') (hp : p.isDerived = true) : r'.Keeps p := by
  cases h with
  | again stored hstored _ hsame => exact ⟨hp, stored, hstored, hsame⟩
  | new hfree _ => exact ⟨hp, p, get?_insert_self hfree, by simp [Policy.same]⟩

/-- A policy that is held stays so when others are stored. -/
theorem Keeps.of_defined (h : r.Keeps q) (hdefined : Defined r p r') : r'.Keeps q := by
  cases hdefined with
  | again => exact h
  | new hfree _ =>
    obtain ⟨stored, hstored, hsame⟩ := h.held
    exact ⟨h.derived, stored, get?_insert_of_some hfree hstored, hsame⟩

/-! ## Lists of definitions -/

theorem Keeps.of_defineAll {ds : List Definition} (h : r.Keeps q)
    (hdefine : r.defineAll ds = (notices, .ok r')) : r'.Keeps q := by
  induction ds generalizing r notices with
  | nil =>
    cases hdefine
    exact h
  | cons d ds ih =>
    obtain ⟨r₁, rest, hdefined, hrest⟩ := defineAll_cons_ok hdefine
    exact ih (h.of_defined hdefined) hrest

/-- All derived policies of a list of definitions are held once the list is stored. -/
theorem keeps_of_defineAll {ds : List Definition} (hdefine : r.defineAll ds = (notices, .ok r'))
    {d : Definition} (hd : d ∈ ds) (hderived : d.policy.isDerived = true) :
    r'.Keeps d.policy := by
  induction ds generalizing r notices with
  | nil => cases hd
  | cons d' ds ih =>
    obtain ⟨r₁, rest, hdefined, hrest⟩ := defineAll_cons_ok hdefine
    rcases List.mem_cons.mp hd with rfl | hd
    · exact (hdefined.keeps hderived).of_defineAll hrest
    · exact ih hrest hd

/-- What comes after a list of definitions only depends on the registry that they lead to. -/
theorem defineAll_append_congr {ds es es' : List Definition}
    (h : ∀ notices r', r.defineAll ds = (notices, .ok r') → r'.defineAll es = r'.defineAll es') :
    r.defineAll (ds ++ es) = r.defineAll (ds ++ es') := by
  induction ds generalizing r with
  | nil => exact h [] r rfl
  | cons d ds ih =>
    rw [List.cons_append, List.cons_append, defineAll, defineAll]
    cases hdefine : r.define d.policy with
    | error e => rfl
    | ok stored =>
      obtain ⟨notices, r₁⟩ := stored
      have hrest : r₁.defineAll (ds ++ es) = r₁.defineAll (ds ++ es') := by
        refine ih fun rest r' hds => h (d.notices ++ notices ++ rest) r' ?_
        rw [defineAll, hdefine]
        simp only [hds]
      simp only [hrest]

/-- Definitions of policies that are held can be left out. -/
theorem defineAll_append_of_keeps {ds es : List Definition}
    (h : ∀ d ∈ ds, d.notices = [] ∧ r.Keeps d.policy) :
    r.defineAll (ds ++ es) = r.defineAll es := by
  induction ds with
  | nil => rfl
  | cons d ds ih =>
    obtain ⟨⟨hnotices, hkeeps⟩, hds⟩ := List.forall_mem_cons.mp h
    rw [List.cons_append, defineAll, hkeeps.define_eq]
    simp only [hnotices, ih hds, List.nil_append]

section Entries

variable {α : Type} [DecidableEq α] {f : α → List Definition} (hf : ∀ a, ∀ d ∈ f a, d.Quiet)

include hf

/-- Repetitions of an entry whose policies are held can be left out. -/
theorem defineAll_filter {a : α} (ha : ∀ d ∈ f a, r.Keeps d.policy) (as : List α)
    (es : List Definition) :
    r.defineAll (as.flatMap f ++ es) =
      r.defineAll ((as.filter fun b => !b == a).flatMap f ++ es) := by
  induction as generalizing r with
  | nil => rfl
  | cons b as ih =>
    rw [List.flatMap_cons, List.append_assoc]
    by_cases hba : b = a
    · subst hba
      rw [List.filter_cons_of_neg (by simp), ← ih ha]
      exact defineAll_append_of_keeps fun d hd => ⟨(hf b d hd).notices_eq, ha d hd⟩
    · rw [List.filter_cons_of_pos (by simpa using hba), List.flatMap_cons, List.append_assoc]
      refine defineAll_append_congr fun notices r' hdefine => ih fun d hd => ?_
      exact (ha d hd).of_defineAll hdefine

/-- **Entries can be repeated:** only their first occurrences define and report anything. -/
theorem defineAll_eraseDups (r : Registry) (as : List α) (es : List Definition) :
    r.defineAll (as.flatMap f ++ es) = r.defineAll (as.eraseDups.flatMap f ++ es) := by
  match as with
  | [] => rfl
  | a :: as =>
    rw [List.eraseDups_cons, List.flatMap_cons, List.flatMap_cons, List.append_assoc,
      List.append_assoc]
    refine defineAll_append_congr fun notices r' hdefine => ?_
    have hkept : ∀ d ∈ f a, r'.Keeps d.policy := fun d hd =>
      keeps_of_defineAll hdefine hd (hf a d hd).derived
    rw [defineAll_filter hf hkept as es]
    exact defineAll_eraseDups r' (as.filter fun b => !b == a) es
termination_by as.length
decreasing_by exact Nat.lt_succ_of_le (List.length_filter_le _ _)

end Entries

end Registry

end RoutePolicy
