import RoutePolicy.Proofs.Evaluation.Confined
import RoutePolicy.Proofs.Registry.StrayLinks

/-!
# Frozen tables are closed

Freezing links references by name, and only to policies of the registry.  So the table of a
registry is closed, unless a stray link of the registry leads outside; and since linking and
simplifying keep the writes of a program, a table has only writes that fit when its registry has.

* `Registry.closed_table_iff`, `Registry.NoStrayLinks.closed_table`,
  `Registry.Unlinked.simplifyAll` — links of frozen tables;
* `Registry.fits_table`, `Registry.fits_simplifyAll` — their writes;
* `Table.Closed.exists_evaluate` — with both, an evaluation always gives a decision.
-/

set_option autoImplicit false

namespace RoutePolicy

/-- All writes of a policy fit their fields. -/
def Policy.Fits (p : Policy) : Prop :=
  ∀ w ∈ Statement.writesAll p.statements, w.2.fits w.1 = true

/-- Where every write fits, an evaluation comes to a decision. -/
theorem Table.Closed.exists_evaluate {t : Table} (h : t.Closed) (hfits : ∀ p ∈ t.policies, p.Fits)
    (s : Settings) (policy : String) (route : Route) (d : Direction) :
    ∃ decision, (t.evaluate s policy route d).2 = .ok decision := by
  cases hevaluate : (t.evaluate s policy route d).2 with
  | ok decision => exact ⟨decision, rfl⟩
  | error e =>
    obtain ⟨n, st, notices, p, field, update, ss, next, -, -, -, hp, -, hmem, hmisfit, -⟩ :=
      h.of_evaluate_error hevaluate
    have hfit : update.fits field = true := hfits p hp (field, update) hmem
    rw [hmisfit] at hfit
    cases hfit

namespace Registry

variable {r : Registry}

theorem exists_of_mem_table {q : Policy} (h : q ∈ r.table.policies) :
    ∃ p ∈ r.policies, q.LinkedFrom r.names p := by
  obtain ⟨i, hi⟩ := List.getElem?_of_mem h
  have hget : r.table.get? ⟨i⟩ = some q := hi
  obtain ⟨p, hp, hlinked⟩ := r.get?_table_some hget
  exact ⟨p, List.mem_of_getElem? hp, hlinked⟩

/-- The links of a frozen table lead to places of the table, unless a stray one does not. -/
theorem closed_table_iff :
    r.table.Closed ↔
      ∀ p ∈ r.policies, ∀ o ∈ p.leftOver r.names, r.table.Within o.target.link.toList := by
  constructor
  · intro hclosed p hp o hleft
    obtain ⟨i, hi⟩ := List.getElem?_of_mem hp
    have hget : r.policies[(⟨i⟩ : PolicyId).index]? = some p := hi
    obtain ⟨q, hq, hlinked⟩ := r.get?_table_of_some hget
    have ho := hlinked.mem_occurrencesAll_iff.mpr (.inr hleft)
    refine hclosed q (List.mem_of_getElem? hq) o.target ?_
    rw [← Statement.map_target_occurrencesAll]
    exact List.mem_map_of_mem ho
  · intro hinside q hq ref href id hid
    obtain ⟨p, hp, hlinked⟩ := exists_of_mem_table hq
    rw [← Statement.map_target_occurrencesAll] at href
    obtain ⟨o, ho, rfl⟩ := List.mem_map.mp href
    rcases hlinked.mem_occurrencesAll_iff.mp ho with ⟨source, -, id', hplace, rfl⟩ | hleft
    · cases List.mem_singleton.mp hid
      exact (r.nameOf_of_placeOf hplace).1
    · exact hinside p hp o hleft id hid

theorem NoStrayLinks.closed_table (hr : r.NoStrayLinks) : r.table.Closed := by
  refine closed_table_iff.mpr fun p hp o hleft id hid => ?_
  rw [hr p hp o hleft] at hid
  cases hid

theorem Unlinked.simplifyAll (hr : r.Unlinked) : r.simplifyAll.Unlinked := by
  intro p hp t ht
  obtain ⟨p₀, hp₀, rfl⟩ := List.mem_map.mp hp
  have hmem := (Statement.referencesAll_simplifyAll_sublist p₀.statements).subset ht
  exact hr p₀ hp₀ t hmem

theorem fits_table (hr : ∀ p ∈ r.policies, p.Fits) : ∀ q ∈ r.table.policies, q.Fits := by
  intro q hq w hw
  obtain ⟨p, hp, hlinked⟩ := exists_of_mem_table hq
  rw [hlinked.statements_eq, Statement.writesAll_linkAll] at hw
  exact hr p hp w hw

theorem fits_simplifyAll (hr : ∀ p ∈ r.policies, p.Fits) :
    ∀ p ∈ r.simplifyAll.policies, p.Fits := by
  intro p hp w hw
  obtain ⟨p₀, hp₀, rfl⟩ := List.mem_map.mp hp
  have hmem := (Statement.writesAll_simplifyAll_sublist p₀.statements).subset hw
  exact hr p₀ hp₀ w hmem

end Registry

end RoutePolicy
