import RoutePolicy.Proofs.Registry.Resolving
import RoutePolicy.Proofs.Registry.StrayLinks

/-!
# Linking is exact

The places of a frozen table are the ranks of the names.  In every policy the references to defined
names have their places, the other references are dropped or left without a link according to where
they stand, and each of these is reported once.

* `Table.link`, `Policy.LinkedIn` — what becomes of a reference and of a policy;
* `Registry.diagnosticsOf_freezeNotices` — the report;
* `Registry.freeze_links` — the result for every registry without links.
-/

set_option autoImplicit false

namespace RoutePolicy

/-- The reference with the place that its name has in the table. -/
def Table.link (t : Table) (ref : Reference) : Reference := { ref with link := t.idOf? ref.name }

/-- `q` is what becomes of the policy `p` in the table. -/
structure Policy.LinkedIn (t : Table) (q p : Policy) : Prop where
  name_eq : q.name = p.name
  origin_eq : q.origin = p.origin
  /-- The program is that of `p` without the references that are dropped, and all others have the
  places of their names. -/
  statements_eq :
    q.statements = Statement.mapReferencesAll t.link (Statement.pruneAll t.names p.statements)
  /-- What is dropped are the undefined references in places that do not keep them. -/
  occurrences_eq :
    Statement.occurrencesAll q.statements =
      ((Statement.occurrencesAll p.statements).filter (·.stays t.names)).map (·.map t.link)
  /-- What is left without a link are the undefined references in places that keep them. -/
  unlinked_eq :
    (Statement.occurrencesAll q.statements).filter (·.target.link.isNone) =
      (Statement.occurrencesAll p.statements).filter fun o =>
        !t.names.contains o.target.name && o.role.keepsUndefined

namespace Registry

variable {r : Registry}

theorem Unlinked.linkOrKeep_eq {p : Policy} (hr : r.Unlinked) (hp : p ∈ r.policies)
    {ref : Reference} (href : ref ∈ Statement.referencesAll p.statements) :
    ref.linkOrKeep r.names = r.table.link ref := by
  have hlink := hr p hp ref href
  rw [Table.link, idOf?_table]
  cases hplace : placeOf r.names ref.name with
  | none => rw [Reference.linkOrKeep_of_undefined hplace, ← hlink]
  | some id => exact Reference.linkOrKeep_of_place hplace

theorem isNone_idOf?_table (name : String) :
    (r.table.idOf? name).isNone = !r.names.contains name := by
  rw [idOf?_table, Bool.eq_iff_iff, Option.isNone_iff_eq_none, placeOf_eq_none_iff,
    Bool.not_eq_true', List.contains_eq_mem, decide_eq_false_iff_not]

theorem Unlinked.linkedIn {p q : Policy} (hr : r.Unlinked) (hp : p ∈ r.policies)
    (hq : q.LinkedFrom r.names p) : q.LinkedIn r.table p := by
  have hnames : r.table.names = r.names := r.names_table
  have hstatements : q.statements =
      Statement.mapReferencesAll r.table.link (Statement.pruneAll r.names p.statements) := by
    rw [hq.statements_eq, Statement.linkAll_eq]
    exact Statement.mapReferencesAll_congr _ fun ref href =>
      hr.linkOrKeep_eq hp (Statement.mem_referencesAll_of_pruneAll r.names href)
  have hoccurrences : Statement.occurrencesAll q.statements =
      ((Statement.occurrencesAll p.statements).filter (·.stays r.names)).map
        (·.map r.table.link) := by
    rw [hstatements, Statement.occurrencesAll_mapReferencesAll, Statement.occurrencesAll_pruneAll]
  refine ⟨hq.name_eq, hq.origin_eq, hnames ▸ hstatements, hnames ▸ hoccurrences, ?_⟩
  have hunlinked : ∀ o ∈ Statement.occurrencesAll p.statements,
      (((·.target.link.isNone) ∘ (·.map r.table.link)) o && o.stays r.names) =
        (!r.names.contains o.target.name && o.role.keepsUndefined) := by
    intro o _
    have hnone : (o.map r.table.link).target.link.isNone = !r.names.contains o.target.name :=
      isNone_idOf?_table o.target.name
    rw [Function.comp_apply, hnone, Occurrence.stays]
    cases r.names.contains o.target.name <;> rfl
  rw [hoccurrences, hnames, List.filter_map, List.filter_filter, List.filter_congr hunlinked]
  -- what is left without a link had none before
  refine (List.map_congr_left fun o ho => ?_).trans (List.map_id _)
  obtain ⟨hmem, hundefined⟩ := List.mem_filter.mp ho
  have hnone : r.table.idOf? o.target.name = none := by
    rw [← Option.isNone_iff_eq_none, isNone_idOf?_table]
    exact (Bool.and_eq_true_iff.mp hundefined).1
  have hlink : o.target.link = none :=
    hr p hp o.target (Statement.map_target_occurrencesAll p.statements ▸ List.mem_map_of_mem hmem)
  rw [Occurrence.map, Table.link, hnone, ← hlink]
  rfl

/-- A freeze reports the undefined references of all policies, one by one and in their order. -/
theorem diagnosticsOf_freezeNotices :
    diagnosticsOf r.freezeNotices = r.policies.flatMap fun p => (p.dangling r.names).map
      fun ref => { policy := p.name, term := ref.term,
                   finding := .undefinedReference .policy ref.name } := by
  rw [freezeNotices, diagnosticsOf_flatMap]
  refine congrArg (List.flatMap · r.policies) (funext fun p => ?_)
  rw [Policy.linkNotices, diagnosticsOf_flatMap]
  exact List.map_eq_flatMap.symm

theorem dangling_eq (p : Policy) :
    p.dangling r.names =
      ((Statement.occurrencesAll p.statements).filter
        fun o => !r.names.contains o.target.name).map (·.target) := by
  have hundefined : ∀ name, (placeOf r.names name).isNone = !r.names.contains name :=
    fun name => r.idOf?_table name ▸ isNone_idOf?_table name
  rw [Policy.dangling, ← Statement.map_target_occurrencesAll, List.filter_map]
  simp only [Function.comp_def, hundefined]

theorem withoutSources_table :
    (r.table.policies.map fun q => { q with sources := .empty }) = r.linked := by
  apply List.ext_getElem?
  intro i
  simp [table, linked, Policy.link, Function.comp_def]

/-- **Linking is exact.**  The policies of a frozen table are those of the registry in the order of
their names, and names and places determine each other.  A reference whose name is defined gets the
place of its name.  One whose name is not defined is dropped or stays without a link, according to
where it stands, and is reported once, for the policy and the term that it is in.  The programs and
the report come out of one pass over the registry. -/
theorem freeze_links (r : Registry) (hr : r.Unlinked) :
    r.freeze.2.names = r.names ∧ r.names.Pairwise (· < ·) ∧
    (∀ id, (∃ q, r.freeze.2.get? id = some q) ↔ id.index < r.size) ∧
    (∀ name id, r.freeze.2.idOf? name = some id ↔
      ∃ q, r.freeze.2.get? id = some q ∧ q.name = name) ∧
    (∀ id q, r.freeze.2.get? id = some q →
      ∃ p, r.policies[id.index]? = some p ∧ q.LinkedIn r.freeze.2 p) ∧
    (diagnosticsOf r.freeze.1 = r.policies.flatMap fun p =>
      ((Statement.occurrencesAll p.statements).filter
          fun o => !r.names.contains o.target.name).map
        fun o => { policy := p.name, term := o.target.term,
                   finding := .undefinedReference .policy o.target.name }) ∧
    Lowering.Yields r.resolve (r.freeze.2.policies.map fun q => { q with sources := .empty })
      r.freeze.1 := by
  refine ⟨r.names_table, List.pairwise_map.mpr r.ascending, fun id => ?_, fun _ _ =>
    Table.idOf?_eq_some_iff, fun id q hq => ?_, ?_, ?_⟩
  · rw [← r.size_table]
    exact Table.exists_get?_iff
  · obtain ⟨p, hp, hlinked⟩ := r.get?_table_some hq
    exact ⟨p, hp, hr.linkedIn (List.mem_of_getElem? hp) hlinked⟩
  · have hreport : diagnosticsOf r.freeze.1 = diagnosticsOf r.freezeNotices := rfl
    simp only [hreport, diagnosticsOf_freezeNotices, dangling_eq, List.map_map, Function.comp_def]
  · have hpolicies : (r.freeze.2.policies.map fun q => { q with sources := .empty }) = r.linked :=
      withoutSources_table
    rw [hpolicies]
    exact r.yields_resolve

/-- An undefined reference in each of the five places, next to defined ones. -/
theorem freeze_links_undefined :
    let r : Registry :=
      { policies := [
          { name := "a"
            statements := [
              .setDefaultPolicy (.named "u1"), .setDefaultPolicy (.named "b"),
              .branch (.any [.firstMatch [(Reference.named "u2").atTerm 0, .named "b"],
                  .allMatch [.named "b", (Reference.named "u3").atTerm 1],
                  .not (.callPolicy (.named "u4"))])
                [.call (.named "u5")] [.call (.named "b")]] },
          { name := "b", statements := [.call (.named "u1"), .call (.named "a")] }]
        ascending := by decide }
    r.Unlinked ∧
      diagnosticsOf r.freeze.1 =
        [{ policy := "a", finding := .undefinedReference .policy "u1" },
          { policy := "a", term := some 0, finding := .undefinedReference .policy "u2" },
          { policy := "a", term := some 1, finding := .undefinedReference .policy "u3" },
          { policy := "a", finding := .undefinedReference .policy "u4" },
          { policy := "a", finding := .undefinedReference .policy "u5" },
          { policy := "b", finding := .undefinedReference .policy "u1" }] := by
  intro r
  have hr : r.Unlinked := by decide
  obtain ⟨-, -, -, -, -, hreport, -⟩ := freeze_links r hr
  exact ⟨hr, hreport.trans (by decide)⟩

end Registry

end RoutePolicy
