import RoutePolicy.Proofs.Policy.References
import RoutePolicy.Proofs.Registry.ByName
import RoutePolicy.Proofs.Table.Frozen

/-!
# References that linking leaves over

Linking gives every reference whose name is defined the place of its name.  What it drops of the
others it drops whatever link they have, but what it keeps of them it keeps as it is.  Such a
reference has no link in a registry that is read from data or comes from a configuration.  In a
policy that was taken out of another table it may have one: a stray link, which leads to whatever
policy stands at that place now.

* `Policy.leftOver` — the references that are left as they are;
* `Policy.LinkedFrom.mem_occurrencesAll_iff` — all references of a frozen policy;
* `Policy.NoStrayLinks`, `Registry.NoStrayLinks` — none of those that are left has a link;
* `Policy.LinkedFrom.link_eq_placeOf_iff` — this is when names determine the links of a frozen
  policy.
-/

set_option autoImplicit false

namespace RoutePolicy

/-- The references of a policy that stay although their names are undefined. -/
def Policy.leftOver (names : List String) (p : Policy) : List Occurrence :=
  (Statement.occurrencesAll p.statements).filter fun o =>
    !names.contains o.target.name && o.role.keepsUndefined

/-- None of the references that are left over in a policy has a link. -/
def Policy.NoStrayLinks (names : List String) (p : Policy) : Prop :=
  ∀ o ∈ p.leftOver names, o.target.link = none

instance (names : List String) (p : Policy) : Decidable (p.NoStrayLinks names) :=
  inferInstanceAs (Decidable (∀ o ∈ p.leftOver names, o.target.link = none))

/-- None of the references that are left over when a registry is frozen has a link. -/
def Registry.NoStrayLinks (r : Registry) : Prop := ∀ p ∈ r.policies, p.NoStrayLinks r.names

instance (r : Registry) : Decidable r.NoStrayLinks :=
  inferInstanceAs (Decidable (∀ p ∈ r.policies, p.NoStrayLinks r.names))

section

variable {names : List String} {p q : Policy} {o : Occurrence}

theorem Policy.mem_leftOver_iff :
    o ∈ p.leftOver names ↔ o ∈ Statement.occurrencesAll p.statements ∧
      placeOf names o.target.name = none ∧ o.role.keepsUndefined = true := by
  rw [leftOver, List.mem_filter, Bool.and_eq_true, Bool.not_eq_true', placeOf_eq_none_iff,
    List.contains_eq_mem, decide_eq_false_iff_not]

theorem Registry.Unlinked.noStrayLinks {r : Registry} (h : r.Unlinked) : r.NoStrayLinks := by
  intro p hp o ho
  have hmem := (Policy.mem_leftOver_iff.mp ho).1
  exact h p hp o.target (Statement.map_target_occurrencesAll p.statements ▸ List.mem_map_of_mem hmem)

theorem Reference.linkOrKeep_of_place {r : Reference} {id : PolicyId}
    (h : placeOf names r.name = some id) : r.linkOrKeep names = r.linked id := by
  simp [linkOrKeep, link?, h]

theorem Reference.linkOrKeep_of_undefined {r : Reference} (h : placeOf names r.name = none) :
    r.linkOrKeep names = r := by
  simp [linkOrKeep, link?, h]

theorem Occurrence.stays_of_place {id : PolicyId} (h : placeOf names o.target.name = some id) :
    o.stays names = true := by
  have hdefined : o.target.name ∈ names := Classical.not_not.mp fun hundefined => by
    rw [placeOf_eq_none_iff.mpr hundefined] at h
    cases h
  rw [Occurrence.stays, List.contains_iff_mem.mpr hdefined, Bool.true_or]

theorem Occurrence.stays_of_undefined (h : placeOf names o.target.name = none) :
    o.stays names = o.role.keepsUndefined := by
  have hundefined : names.contains o.target.name = false := by
    rw [List.contains_eq_mem, decide_eq_false_iff_not]
    exact placeOf_eq_none_iff.mp h
  rw [Occurrence.stays, hundefined, Bool.false_or]

namespace Policy.LinkedFrom

/-- A reference of a frozen policy has the place of its name, or is left over as it was. -/
theorem mem_occurrencesAll_iff (h : q.LinkedFrom names p) :
    o ∈ Statement.occurrencesAll q.statements ↔
      (∃ source ∈ Statement.occurrencesAll p.statements, ∃ id,
        placeOf names source.target.name = some id ∧ o = source.map (·.linked id)) ∨
      o ∈ p.leftOver names := by
  rw [h.statements_eq, Statement.occurrencesAll_linkAll, List.mem_map, mem_leftOver_iff]
  constructor
  · rintro ⟨source, hsource, rfl⟩
    obtain ⟨hmem, hstays⟩ := List.mem_filter.mp hsource
    cases hplace : placeOf names source.target.name with
    | some id =>
      refine .inl ⟨source, hmem, id, hplace, ?_⟩
      rw [Occurrence.map, Occurrence.map, Reference.linkOrKeep_of_place hplace]
    | none =>
      have hkept : source.map (·.linkOrKeep names) = source := by
        rw [Occurrence.map, Reference.linkOrKeep_of_undefined hplace]
      rw [Occurrence.stays_of_undefined hplace] at hstays
      exact .inr (hkept.symm ▸ ⟨hmem, hplace, hstays⟩)
  · rintro (⟨source, hmem, id, hplace, rfl⟩ | ⟨hmem, hplace, hkeeps⟩)
    · refine ⟨source, List.mem_filter.mpr ⟨hmem, Occurrence.stays_of_place hplace⟩, ?_⟩
      rw [Occurrence.map, Occurrence.map, Reference.linkOrKeep_of_place hplace]
    · refine ⟨o, List.mem_filter.mpr ⟨hmem, ?_⟩, ?_⟩
      · rw [Occurrence.stays_of_undefined hplace, hkeeps]
      · rw [Occurrence.map, Reference.linkOrKeep_of_undefined hplace]

/-- The links of a frozen policy are the places of the names exactly when no link is a stray
one. -/
theorem link_eq_placeOf_iff (h : q.LinkedFrom names p) :
    (∀ ref ∈ Statement.referencesAll q.statements, ref.link = placeOf names ref.name) ↔
      p.NoStrayLinks names := by
  rw [← Statement.map_target_occurrencesAll, List.forall_mem_map]
  constructor
  · intro hlinks o ho
    rw [hlinks o (h.mem_occurrencesAll_iff.mpr (.inr ho))]
    exact (mem_leftOver_iff.mp ho).2.1
  · intro hstray o ho
    rcases h.mem_occurrencesAll_iff.mp ho with ⟨source, -, id, hplace, rfl⟩ | hleft
    · exact hplace.symm
    · rw [hstray o hleft, (mem_leftOver_iff.mp hleft).2.1]

end Policy.LinkedFrom

end

end RoutePolicy
