import RoutePolicy.Configuration.Convert
import RoutePolicy.Proofs.Policy.References

/-!
# Defining policies

What a registry holds after policies were defined in it: what it held before, and the policies
that were defined.  A derived policy that is defined again is the stored one, for the policies that
builders make refer to others by name alone.

* `Policy.Plain` — references are names and nothing else;
* `Definition.Quiet` — a definition of a derived policy that reports nothing;
* `Registry.Defined`, `Registry.defined_of_define` — all that storing a policy can do;
* `Registry.mem_defineAll_iff` — the policies of a registry after a list of definitions.
-/

set_option autoImplicit false

namespace RoutePolicy

/-- All references of the policy are names, without a link and without a term. -/
def Policy.Plain (p : Policy) : Prop :=
  ∀ r ∈ Statement.referencesAll p.statements, r = .named r.name

theorem Policy.Plain.mapReferences_withoutTerm {p : Policy} (h : p.Plain) :
    p.mapReferences Reference.withoutTerm = p := by
  have hkept : Statement.mapReferencesAll Reference.withoutTerm p.statements = p.statements := by
    refine Statement.mapReferencesAll_eq_self fun r hr => ?_
    rw [h r hr]
    rfl
  unfold mapReferences
  rw [hkept]

/-- Policies without terms are the same only when they are equal. -/
theorem Policy.Plain.eq_of_same {p q : Policy} (hp : p.Plain) (hq : q.Plain)
    (h : p.same q = true) : p = q := by
  rw [same, hp.mapReferences_withoutTerm, hq.mapReferences_withoutTerm] at h
  exact eq_of_beq h

theorem Policy.isDerived_of_same {p q : Policy} (h : p.same q = true) :
    p.isDerived = q.isDerived := by
  have heq := congrArg Policy.origin (eq_of_beq h)
  exact congrArg (· == Authorship.derived) heq

/-- A name is not refused when it is a derived policy's, or is not reserved. -/
theorem Policy.allowed_iff {p : Policy} : (!p.isDerived && isReservedName p.name) = false ↔
    p.isDerived = true ∨ isReservedName p.name = false := by
  cases p.isDerived <;> simp

/-- A definition that stores a derived policy and reports nothing while it is made. -/
structure Definition.Quiet (d : Definition) : Prop where
  notices_eq : d.notices = []
  derived : d.policy.isDerived = true

namespace Registry

theorem mem_insertIn_of_mem {p q : Policy} {l : List Policy} (h : q ∈ l) : q ∈ insertIn p l := by
  induction l with
  | nil => cases h
  | cons f rest ih =>
    rw [insertIn]
    split
    · exact List.mem_cons_of_mem _ h
    · split
      · rcases List.mem_cons.mp h with rfl | h
        · exact List.mem_cons_self
        · exact List.mem_cons_of_mem _ (ih h)
      · exact h

theorem mem_insertIn_self {p : Policy} {l : List Policy} (hfree : ∀ q ∈ l, q.name ≠ p.name) :
    p ∈ insertIn p l := by
  induction l with
  | nil => exact List.mem_cons_self
  | cons f rest ih =>
    rw [insertIn]
    split
    · exact List.mem_cons_self
    · split
      · exact List.mem_cons_of_mem _ (ih fun q hq => hfree q (List.mem_cons_of_mem _ hq))
      · rename_i hbefore hbehind
        have hname : f.name = p.name := (KeyOrder.connected hbefore hbehind).symm
        exact absurd hname (hfree f List.mem_cons_self)

theorem get?_eq_none_iff {r : Registry} {name : String} :
    r.get? name = none ↔ ∀ q ∈ r.policies, q.name ≠ name := by
  simp [get?, List.find?_eq_none]

theorem mem_insert_iff {r : Registry} {p q : Policy} (hfree : r.get? p.name = none) :
    q ∈ (r.insert p).policies ↔ q ∈ r.policies ∨ q = p := by
  constructor
  · intro h
    exact (mem_of_mem_insertIn h).symm
  · rintro (h | rfl)
    · exact mem_insertIn_of_mem h
    · exact mem_insertIn_self (get?_eq_none_iff.mp hfree)

/-- All that storing a policy can do to a registry: nothing, when a derived policy is stored
already, or the policy is new, and is not a user's policy under a reserved name. -/
inductive Defined (r : Registry) (p : Policy) : Registry → Prop where
  | again (stored : Policy) (get_eq : r.get? p.name = some stored)
      (derived : p.isDerived = true) (same : stored.same p = true) : Defined r p r
  | new (free : r.get? p.name = none)
      (allowed : p.isDerived = true ∨ isReservedName p.name = false) : Defined r p (r.insert p)

theorem defined_of_define {r r' : Registry} {p : Policy} {notices : List Notice}
    (h : r.define p = .ok (notices, r')) : Defined r p r' := by
  unfold define at h
  split at h
  · cases h
  · rename_i hname
    have hallowed := Policy.allowed_iff.mp (Bool.not_eq_true _ ▸ hname)
    split at h
    · rename_i stored hstored
      split at h
      · rename_i hsame
        cases h
        rw [Bool.and_eq_true] at hsame
        exact .again stored hstored hsame.1 hsame.2
      · cases h
    · rename_i hfree
      cases h
      exact .new hfree hallowed

theorem mem_of_get? {r : Registry} {name : String} {p : Policy} (h : r.get? name = some p) :
    p ∈ r.policies := List.mem_of_find?_eq_some h

/-- The derived policies of a registry are plain. -/
def DerivedPlain (r : Registry) : Prop := ∀ p ∈ r.policies, p.isDerived = true → p.Plain

/-- After a policy was defined, the registry holds it besides what it held before. -/
theorem Defined.mem_iff {r r' : Registry} {p : Policy} (hr : r.DerivedPlain)
    (hp : p.isDerived = true → p.Plain) (h : Defined r p r') (q : Policy) :
    q ∈ r'.policies ↔ q ∈ r.policies ∨ q = p := by
  cases h with
  | again stored hstored hderived hsame =>
    have hmem := mem_of_get? hstored
    have hplain := hr stored hmem ((Policy.isDerived_of_same hsame).trans hderived)
    have heq : stored = p := hplain.eq_of_same (hp hderived) hsame
    constructor
    · exact .inl
    · rintro (h | rfl)
      · exact h
      · exact heq ▸ hmem
  | new hfree hallowed => exact mem_insert_iff hfree

theorem Defined.derivedPlain {r r' : Registry} {p : Policy} (hr : r.DerivedPlain)
    (hp : p.isDerived = true → p.Plain) (h : Defined r p r') : r'.DerivedPlain := by
  intro q hq hderived
  rcases (h.mem_iff hr hp q).mp hq with hq | rfl
  · exact hr q hq hderived
  · exact hp hderived

/-- No user's policy has a reserved name. -/
def NamesAllowed (r : Registry) : Prop :=
  ∀ p ∈ r.policies, p.isDerived = true ∨ isReservedName p.name = false

theorem Defined.namesAllowed {r r' : Registry} {p : Policy} (hr : r.NamesAllowed)
    (h : Defined r p r') : r'.NamesAllowed := by
  cases h with
  | again => exact hr
  | new hfree hallowed =>
    intro q hq
    rcases (mem_insert_iff hfree).mp hq with hq | rfl
    · exact hr q hq
    · exact hallowed

/-! ## Lists of definitions -/

theorem defineAll_cons_ok {r r' : Registry} {d : Definition} {ds : List Definition}
    {notices : List Notice} (h : r.defineAll (d :: ds) = (notices, .ok r')) :
    ∃ r₁ rest, Defined r d.policy r₁ ∧ r₁.defineAll ds = (rest, .ok r') := by
  rw [defineAll] at h
  split at h
  · cases h
  · rename_i defined r₁ hdefine
    rcases hrest : r₁.defineAll ds with ⟨rest, result⟩
    rw [hrest, Prod.mk.injEq] at h
    obtain ⟨-, rfl⟩ := h
    exact ⟨r₁, rest, defined_of_define hdefine, hrest⟩

/-- **What a registry holds after a list of definitions:** what it held before, and every policy
that was defined.  The derived policies among them are plain. -/
theorem mem_defineAll_iff {ds : List Definition} {r r' : Registry} {notices : List Notice}
    (hr : r.DerivedPlain) (hds : ∀ d ∈ ds, d.policy.isDerived = true → d.policy.Plain)
    (h : r.defineAll ds = (notices, .ok r')) (p : Policy) :
    p ∈ r'.policies ↔ p ∈ r.policies ∨ ∃ d ∈ ds, d.policy = p := by
  induction ds generalizing r notices with
  | nil =>
    cases h
    simp
  | cons d ds ih =>
    obtain ⟨hd, hrest⟩ := List.forall_mem_cons.mp hds
    obtain ⟨r₁, rest, hdefined, hdefineAll⟩ := defineAll_cons_ok h
    have hsplit : (∃ d' ∈ d :: ds, d'.policy = p) ↔ p = d.policy ∨ ∃ d' ∈ ds, d'.policy = p := by
      simp [eq_comm]
    rw [ih (hdefined.derivedPlain hr hd) hrest hdefineAll, hdefined.mem_iff hr hd p, hsplit,
      or_assoc]

theorem namesAllowed_defineAll {ds : List Definition} {r r' : Registry} {notices : List Notice}
    (hr : r.NamesAllowed) (h : r.defineAll ds = (notices, .ok r')) : r'.NamesAllowed := by
  induction ds generalizing r notices with
  | nil =>
    cases h
    exact hr
  | cons d ds ih =>
    obtain ⟨r₁, rest, hdefined, hdefineAll⟩ := defineAll_cons_ok h
    exact ih (hdefined.namesAllowed hr) hdefineAll

end Registry

end RoutePolicy
