import RoutePolicy.Proofs.Policy.Occurrences
import RoutePolicy.Table
import Mathlib.Logic.Relation

/-!
# The references of a table as a graph

Every reference of a frozen table that is linked leads from the place of the policy that it is in
to the place of the policy that it names.

* `Table.Refers` — the references that stand in certain places, as a relation on the policies;
* `Table.Calls`, `Table.CallsInPlace`, `Table.SetsDefault` — all references that run a policy,
  those of call statements, and those that name a default policy;
* `Table.FallsTo` — the default policies that a policy can come to, by itself or by what it calls;
* `Table.Contains` — references that are among those of a policy;
* `Table.ByName` — a relation on the policies as one on their names.
-/

set_option autoImplicit false

namespace RoutePolicy

namespace Table

variable (t : Table)

/-- The policy at `i` has a reference to the policy at `j`, in one of the places that are meant. -/
def Refers (meant : Role → Prop) (i j : PolicyId) : Prop :=
  ∃ p, t.get? i = some p ∧
    ∃ o ∈ Statement.occurrencesAll p.statements, meant o.role ∧ o.target.link = some j

/-- The policy at `i` can call the one at `j`: by a call statement, in a chain or in a condition. -/
def Calls : PolicyId → PolicyId → Prop := t.Refers (· ≠ .defaultPolicy)

/-- The policy at `i` has a call statement for the one at `j`. -/
def CallsInPlace : PolicyId → PolicyId → Prop := t.Refers (· = .call)

/-- The policy at `i` makes the one at `j` the default policy. -/
def SetsDefault : PolicyId → PolicyId → Prop := t.Refers (· = .defaultPolicy)

/-- The policy at `i`, or one that it comes to by call statements only, makes the one at `j` the
default policy. -/
def FallsTo (i j : PolicyId) : Prop :=
  ∃ k, Relation.ReflTransGen t.CallsInPlace i k ∧ t.SetsDefault k j

/-- The policy at `i` has all of the references, in the same places. -/
def Contains (i : PolicyId) (os : List Occurrence) : Prop :=
  ∃ p, t.get? i = some p ∧ os ⊆ Statement.occurrencesAll p.statements

/-- The policies of two names are in a relation. -/
def ByName (R : PolicyId → PolicyId → Prop) (a b : String) : Prop :=
  ∃ i j, t.idOf? a = some i ∧ t.idOf? b = some j ∧ R i j

variable {t}

theorem Refers.mono {meant meant' : Role → Prop} (h : ∀ role, meant role → meant' role)
    {i j : PolicyId} (hij : t.Refers meant i j) : t.Refers meant' i j := by
  obtain ⟨p, hp, o, ho, hrole, hlink⟩ := hij
  exact ⟨p, hp, o, ho, h o.role hrole, hlink⟩

theorem Contains.refers {meant : Role → Prop} {i j : PolicyId} {os : List Occurrence}
    (h : t.Contains i os) {o : Occurrence} (ho : o ∈ os) (hmeant : meant o.role)
    (hlink : o.target.link = some j) : t.Refers meant i j := by
  obtain ⟨p, hp, hsub⟩ := h
  exact ⟨p, hp, o, hsub ho, hmeant, hlink⟩

theorem Contains.mono {i : PolicyId} {os os' : List Occurrence} (h : t.Contains i os)
    (hsub : os' ⊆ os) : t.Contains i os' := by
  obtain ⟨p, hp, hp'⟩ := h
  exact ⟨p, hp, List.Subset.trans hsub hp'⟩

theorem Contains.append {i : PolicyId} {os os' : List Occurrence} (h : t.Contains i (os ++ os')) :
    t.Contains i os ∧ t.Contains i os' :=
  ⟨h.mono (List.subset_append_left os os'), h.mono (List.subset_append_right os os')⟩

/-- The search for callers follows the edges of the graph. -/
theorem calls_iff {i j : PolicyId} :
    t.Calls i j ↔ ∃ p, t.get? i = some p ∧ j ∈ Statement.calleesAll p.statements :=
  exists_congr fun _ => and_congr_right fun _ => (Statement.mem_calleesAll_iff _).symm

end Table

end RoutePolicy
