import RoutePolicy.Registry.Provenance

/-!
# Frozen tables

A table holds linked policies in the order of their names; the place of a policy in that order is
its `PolicyId`.  `Registry.freeze` makes a table and reports the undefined references.
-/

set_option autoImplicit false

namespace RoutePolicy

/-- Linked policies in the order of their names. -/
structure Table where
  policies : List Policy
  ascending : policies.Pairwise (fun p q => p.name < q.name)

namespace Table

/-- The policy at a place. -/
def get? (t : Table) (id : PolicyId) : Option Policy := t.policies[id.index]?

/-- The place of the policy of a name. -/
def idOf? (t : Table) (name : String) : Option PolicyId :=
  placeOf (t.policies.map (·.name)) name

/-- The policy of a name. -/
def resolve? (t : Table) (name : String) : Option Policy := (t.idOf? name).bind t.get?

/-- The number of policies. -/
def size (t : Table) : Nat := t.policies.length

/-- The names in the order of the places. -/
def names (t : Table) : List String := t.policies.map (·.name)

/-- The name of the policy at a place. -/
def nameOf (t : Table) (id : PolicyId) : String :=
  match t.get? id with
  | some p => p.name
  | none => "#" ++ Decimal.text id.index

/-- The user policies from which the policy of a name can be reached. -/
def sourcesReaching (t : Table) (name : String) : SortedSet String :=
  match t.idOf? name with
  | some id => sourcesOf (callersOf t.policies) id
  | none => .empty

end Table

namespace Registry

/-- The linked policies of a registry, without sources. -/
def linked (r : Registry) : List Policy := r.policies.map (·.link r.names)

/-- The frozen table of a registry. -/
def table (r : Registry) : Table where
  policies :=
    let callers := callersOf r.linked
    r.linked.mapIdx fun i p => { p with sources := sourcesOf callers ⟨i⟩ }
  ascending := by
    rw [List.pairwise_iff_getElem]
    have h := List.pairwise_iff_getElem.mp r.ascending
    intro i j hi hj hij
    simpa [linked, Policy.link] using
      h i j (by simpa [linked] using hi) (by simpa [linked] using hj) hij

/-- What is reported when a registry is frozen. -/
def freezeNotices (r : Registry) : List Notice :=
  r.policies.flatMap (·.linkNotices r.names)

/-- Ends the collection of policies: the table, and a report of every undefined reference.

A reference that stays although its name is undefined keeps the link that it has.  There is a table
only if no such link leads outside, which is so for the registries of `Registry.closed_table_iff`
and for no others; what `freeze` gives for the others stands for nothing.  References that are read
from data, compiled or built have no link before they are linked here, so that no registry of them
is among the others (`Registry.NoStrayLinks.closed_table`). -/
def freeze (r : Registry) : List Notice × Table := (r.freezeNotices, r.table)

end Registry

end RoutePolicy
