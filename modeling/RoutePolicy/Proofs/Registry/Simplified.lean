import RoutePolicy.Proofs.Registry.Provenance
import RoutePolicy.Proofs.Registry.SimplifyAll

/-!
# What a freeze loses by simplification

A policy that is simplified names fewer policies, and names none that it did not name before.  When
its registry is frozen there is less to report, and less from which a policy can be reached.

* `Table.Diminished` — a table with the policies of another one and some of its calls, and
  `Table.Diminished.sources`, the sources in such a table;
* `Registry.simplifyAll_diminished`, `Registry.freezeNotices_simplifyAll_sublist` — the table and
  the report of a simplified registry;
* `Registry.freeze_simplifyAll` — both of them together.
-/

set_option autoImplicit false

namespace RoutePolicy

namespace Table

variable {t u : Table}

/-- `t` has policies of `u` in their places, and makes no calls but those of `u`. -/
structure Diminished (t u : Table) : Prop where
  policy : ∀ {id : PolicyId} {p : Policy}, t.get? id = some p →
    ∃ q, u.get? id = some q ∧ q.name = p.name ∧ q.isDerived = p.isDerived
  calls : ∀ {i j : PolicyId}, t.Calls i j → u.Calls i j

namespace Diminished

theorem idOf? (h : t.Diminished u) {name : String} {id : PolicyId}
    (hplace : t.idOf? name = some id) : u.idOf? name = some id := by
  obtain ⟨p, hp, rfl⟩ := idOf?_eq_some_iff.mp hplace
  obtain ⟨q, hq, hname, -⟩ := h.policy hp
  exact idOf?_eq_some_iff.mpr ⟨q, hq, hname⟩

theorem userCalls (h : t.Diminished u) {i j : PolicyId} (hcall : t.UserCalls i j) :
    u.UserCalls i j := by
  obtain ⟨⟨p, hp, huser⟩, hcalls⟩ := hcall
  obtain ⟨q, hq, -, hderived⟩ := h.policy hp
  exact ⟨⟨q, hq, hderived.trans huser⟩, h.calls hcalls⟩

/-- A path stays a path when calls are added, so that no source is lost. -/
theorem sources (h : t.Diminished u) {name user : String} (huser : user ∈ t.sourcesReaching name) :
    user ∈ u.sourcesReaching name := by
  obtain ⟨i, j, p, hplace, hp, rfl, hauthor, hpath⟩ := mem_sourcesReaching_iff.mp huser
  obtain ⟨q, hq, hname, hderived⟩ := h.policy hp
  exact mem_sourcesReaching_iff.mpr ⟨i, j, q, h.idOf? hplace, hq, hname, hderived.trans hauthor,
    Relation.ReflTransGen.mono (fun _ _ => h.userCalls) _ _ hpath⟩

end Diminished

end Table

namespace Registry

variable (r : Registry)

/-- A policy in the table of the simplified registry, next to the one in its place in the table of
the registry. -/
theorem get?_table_simplifyAll {r : Registry} {id : PolicyId} {q : Policy}
    (h : r.simplifyAll.table.get? id = some q) :
    ∃ p q', r.table.get? id = some q' ∧ q'.LinkedFrom r.names p ∧
      q.LinkedFrom r.names p.simplify := by
  obtain ⟨_, hsimplified, hlinked⟩ := r.simplifyAll.get?_table_some h
  rw [simplifyAll, List.getElem?_map, Option.map_eq_some_iff] at hsimplified
  obtain ⟨p, hp, rfl⟩ := hsimplified
  obtain ⟨q', hq', hlinked'⟩ := r.get?_table_of_some hp
  exact ⟨p, q', hq', hlinked', r.names_simplifyAll ▸ hlinked⟩

/-- A reference of a simplified policy stands in the same place in the policy itself. -/
theorem refers_of_simplifyAll {r : Registry} {meant : Role → Prop} {i j : PolicyId}
    (h : r.simplifyAll.table.Refers meant i j) : r.table.Refers meant i j := by
  obtain ⟨q, hq, o, ho, hmeant, hlink⟩ := h
  obtain ⟨p, q', hq', hlinked', hlinked⟩ := get?_table_simplifyAll hq
  have hsublist : (Statement.occurrencesAll q.statements).Sublist
      (Statement.occurrencesAll q'.statements) := by
    rw [hlinked.statements_eq, hlinked'.statements_eq, Statement.occurrencesAll_linkAll,
      Statement.occurrencesAll_linkAll]
    exact ((Statement.occurrencesAll_simplifyAll_sublist p.statements).filter _).map _
  exact ⟨q', hq', o, hsublist.subset ho, hmeant, hlink⟩

theorem simplifyAll_diminished : r.simplifyAll.table.Diminished r.table where
  policy hq := by
    obtain ⟨p, q', hq', hlinked', hlinked⟩ := get?_table_simplifyAll hq
    have horigin : q'.origin = _ := hlinked'.origin_eq.trans hlinked.origin_eq.symm
    exact ⟨q', hq', hlinked'.name_eq.trans hlinked.name_eq.symm, congrArg (· == _) horigin⟩
  calls := refers_of_simplifyAll

theorem dangling_simplify_sublist (names : List String) (p : Policy) :
    (p.simplify.dangling names).Sublist (p.dangling names) :=
  (Statement.referencesAll_simplifyAll_sublist p.statements).filter _

/-- A simplified registry reports nothing that the registry does not report, in the same order. -/
theorem freezeNotices_simplifyAll_sublist :
    r.simplifyAll.freezeNotices.Sublist r.freezeNotices := by
  rw [freezeNotices, freezeNotices, names_simplifyAll, simplifyAll, List.flatMap_map]
  refine List.Sublist.flatMap_right _ fun p _ => ?_
  exact (dangling_simplify_sublist r.names p).flatMap _

/-- **Simplifying before a freeze only removes reports and provenance.**  The names have the same
places, the undefined references are reported in the same order with some of them left out, and the
sources of a policy are among those that it has without the simplification. -/
theorem freeze_simplifyAll (r : Registry) :
    r.simplifyAll.freeze.2.names = r.freeze.2.names ∧
    (∀ name, r.simplifyAll.freeze.2.idOf? name = r.freeze.2.idOf? name) ∧
    (diagnosticsOf r.simplifyAll.freeze.1).Sublist (diagnosticsOf r.freeze.1) ∧
    (∀ id q, r.simplifyAll.freeze.2.get? id = some q → ∃ p, r.freeze.2.get? id = some p ∧
      p.name = q.name ∧ ∀ user ∈ q.sources, user ∈ p.sources) ∧
    ∀ name, ∀ user ∈ r.simplifyAll.freeze.2.sourcesReaching name,
      user ∈ r.freeze.2.sourcesReaching name := by
  have hnames : r.simplifyAll.table.names = r.table.names :=
    (names_table _).trans (r.names_simplifyAll.trans r.names_table.symm)
  have hsources : ∀ name, ∀ user ∈ r.simplifyAll.table.sourcesReaching name,
      user ∈ r.table.sourcesReaching name := fun _ _ => r.simplifyAll_diminished.sources
  refine ⟨hnames, fun name => congrArg (placeOf · name) hnames,
    r.freezeNotices_simplifyAll_sublist.filterMap _, fun id q hq => ?_, hsources⟩
  obtain ⟨p, hp, hname, -⟩ := r.simplifyAll_diminished.policy hq
  refine ⟨p, hp, hname, fun user huser => ?_⟩
  rw [sources_table _ (List.mem_of_getElem? hq)] at huser
  rw [sources_table _ (List.mem_of_getElem? hp), hname]
  exact hsources q.name user huser

/-- What can no longer be reached names a policy that is not there, and one that is. -/
example :
    let r : Registry :=
      { policies := [
          { name := "a"
            statements := [.control .exitAccept, .call (.named "gone"), .call (.named "b")] },
          { name := "b", statements := [] }]
        ascending := by decide }
    (diagnosticsOf r.freeze.1).length = 1 ∧ diagnosticsOf r.simplifyAll.freeze.1 = [] ∧
      (r.freeze.2.sourcesReaching "b").toList = ["a", "b"] ∧
      (r.simplifyAll.freeze.2.sourcesReaching "b").toList = ["b"] := by
  decide

end Registry

end RoutePolicy
