import RoutePolicy.Proofs.Ordered.SortedSet
import RoutePolicy.Proofs.Registry.Refusal
import RoutePolicy.Proofs.Table.Equivalence
import RoutePolicy.Proofs.Table.Frozen

/-!
# Registries whose policies do the same

Two registries are alike when they have policies under the same names, and those of one name do the
same once they are linked.  Their tables cannot be told apart by an evaluation.

* `Registry.Alike`, `Registry.Alike.equivalent` — alike registries and their tables;
* `Registry.replace`, `Registry.alike_replace` — another policy in the place of one.
-/

set_option autoImplicit false

namespace RoutePolicy

namespace Registry

variable {r r' : Registry}

theorem eq_of_name_eq {p q : Policy} (hp : p ∈ r.policies) (hq : q ∈ r.policies)
    (hname : p.name = q.name) : p = q :=
  List.inj_on_of_nodup_map r.nodup_names hp hq hname

theorem mem_names_iff {name : String} : name ∈ r.names ↔ ∃ p ∈ r.policies, p.name = name :=
  List.mem_map

/-- The registries have policies under the same names, and what is stored under a name does the same
in both of them. -/
structure Alike (r r' : Registry) : Prop where
  policy : ∀ p ∈ r.policies, ∃ q ∈ r'.policies, p.name = q.name ∧ ∀ ctx,
    Statement.performAll r.names ctx p.statements = Statement.performAll r.names ctx q.statements
  name : ∀ q ∈ r'.policies, ∃ p ∈ r.policies, p.name = q.name

namespace Alike

theorem names_eq (h : r.Alike r') : r.names = r'.names := by
  have hsets : (⟨r.names, List.pairwise_map.mpr r.ascending⟩ : SortedSet String) =
      ⟨r'.names, List.pairwise_map.mpr r'.ascending⟩ := by
    refine SortedSet.ext_mem fun name => mem_names_iff.trans (.trans ?_ mem_names_iff.symm)
    constructor
    · rintro ⟨p, hp, rfl⟩
      obtain ⟨q, hq, hname, -⟩ := h.policy p hp
      exact ⟨q, hq, hname.symm⟩
    · rintro ⟨q, hq, rfl⟩
      exact h.name q hq
  exact congrArg SortedSet.toList hsets

/-- **Alike registries have equivalent tables.** -/
theorem equivalent (h : r.Alike r') : r.table.Equivalent r'.table where
  size_eq := by
    have hlength := congrArg List.length h.names_eq
    rw [names, names, List.length_map, List.length_map] at hlength
    rw [size_table, size_table]
    exact hlength
  policy := by
    intro id p q hp hq
    obtain ⟨p₀, hp₀, hlinked⟩ := r.get?_table_some hp
    obtain ⟨q₀, hq₀, hlinked'⟩ := r'.get?_table_some hq
    -- equal places have equal names
    have hplace : p₀.name = q₀.name := by
      have hnames := congrArg (·[id.index]?) h.names_eq
      simp only [names, List.getElem?_map, hp₀, hq₀, Option.map_some, Option.some.injEq] at hnames
      exact hnames
    obtain ⟨q₁, hq₁, hname, hsame⟩ := h.policy p₀ (List.mem_of_getElem? hp₀)
    obtain rfl : q₁ = q₀ :=
      eq_of_name_eq hq₁ (List.mem_of_getElem? hq₀) (hname.symm.trans hplace)
    refine ⟨hlinked.name_eq.trans (hplace.trans hlinked'.name_eq.symm), fun ctx => ?_⟩
    rw [hlinked.runAll_eq, hlinked'.runAll_eq, ← h.names_eq, hsame]

end Alike

/-- The registry with a policy in the place of the one of its name. -/
def replace (r : Registry) (p : Policy) : Registry where
  policies := r.policies.map fun q => if q.name = p.name then p else q
  ascending := by
    have hname : ∀ q : Policy, (if q.name = p.name then p else q).name = q.name := by
      intro q
      split
      · rename_i hsame
        exact hsame.symm
      · rfl
    exact List.pairwise_map.mpr (r.ascending.imp fun hless => by rwa [hname, hname])

/-- A policy may be replaced by one that does the same. -/
theorem alike_replace {p p' : Policy} (hp : p ∈ r.policies) (hname : p.name = p'.name)
    (hsame : ∀ ctx, Statement.performAll r.names ctx p.statements =
      Statement.performAll r.names ctx p'.statements) : r.Alike (r.replace p') where
  policy q hq := by
    by_cases hplace : q.name = p'.name
    · obtain rfl := eq_of_name_eq hq hp (hplace.trans hname.symm)
      exact ⟨p', List.mem_map.mpr ⟨q, hq, if_pos hplace⟩, hname, hsame⟩
    · exact ⟨q, List.mem_map.mpr ⟨q, hq, if_neg hplace⟩, rfl, fun _ => rfl⟩
  name q hq := by
    obtain ⟨q₀, hq₀, rfl⟩ := List.mem_map.mp hq
    refine ⟨q₀, hq₀, ?_⟩
    split
    · assumption
    · rfl

end Registry

end RoutePolicy
