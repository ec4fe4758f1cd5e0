import RoutePolicy.Proofs.Policy.SimplifySound
import RoutePolicy.Proofs.Registry.Alike

/-!
# Simplifying a registry

The table of a simplified registry is equivalent to the table of the registry.  Policies keep
their places, because they keep their names, and each of them does what it did before.

* `Registry.alike_simplifyAll`, `Registry.simplifyAll_equivalent` — the equivalence of the two
  tables;
* `Registry.evaluate_simplifyAll` — every evaluation gives the same notices and the same result.
-/

set_option autoImplicit false

namespace RoutePolicy

namespace Registry

variable (r : Registry)

theorem names_simplifyAll : r.simplifyAll.names = r.names := by
  simp [names, simplifyAll, Policy.simplify, Function.comp_def]

/-- Simplified policies do what they did before. -/
theorem alike_simplifyAll : r.Alike r.simplifyAll where
  policy p hp := ⟨p.simplify, List.mem_map_of_mem hp, rfl, fun ctx =>
    (Statement.performAll_simplifyAll r.names ctx p.statements).symm⟩
  name q hq := by
    obtain ⟨p, hp, rfl⟩ := List.mem_map.mp hq
    exact ⟨p, hp, rfl⟩

theorem simplifyAll_equivalent : r.simplifyAll.table.Equivalent r.table :=
  r.alike_simplifyAll.equivalent.symm

/-- **Simplification keeps the meaning of a whole registry.**  Whatever the policies are and
however they call each other, an evaluation on the frozen table gives the same decision or the
same failure, and reports the same diagnostics in the same order, whether the policies were
simplified before or not. -/
theorem evaluate_simplifyAll (s : Settings) (policy : String) (route : Route) (d : Direction) :
    r.simplifyAll.freeze.2.evaluate s policy route d = r.freeze.2.evaluate s policy route d :=
  Table.evaluate_congr r.simplifyAll_equivalent s policy route d

end Registry

end RoutePolicy
