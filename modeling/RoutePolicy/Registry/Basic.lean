import RoutePolicy.Event
import RoutePolicy.Ordered.SortedMap
import RoutePolicy.Policy.Simplify

/-!
# The registry

Policies are collected under distinct names before any route is evaluated.

* `Registry.define` stores a policy or gives a `DefineError` and stores nothing.  The same derived
  policy may be stored again, because several builders share the protocol defaults.
* `Registry.simplifyAll` simplifies every stored policy.
-/

set_option autoImplicit false

namespace RoutePolicy

/-- Why a policy cannot be stored. -/
inductive DefineError where
  | reservedName (name : String)
  | duplicate (name : String)
  deriving DecidableEq, Repr

/-- The wording of a failure to store a policy. -/
def DefineError.message : DefineError → String
  | .reservedName name => "policy name '" ++ name ++ "' is reserved for derived policies"
  | .duplicate name => "policy '" ++ name ++ "' is defined more than once"

/-- Policies under distinct names, in the order of the names. -/
structure Registry where
  policies : List Policy
  ascending : policies.Pairwise (fun p q => p.name < q.name)
  deriving DecidableEq

namespace Registry

/-- The registry without policies. -/
def empty : Registry := ⟨[], .nil⟩

/-- The policy of a name. -/
def get? (r : Registry) (name : String) : Option Policy :=
  r.policies.find? (fun p => p.name == name)

/-- Whether a name is taken. -/
def contains (r : Registry) (name : String) : Bool := (r.get? name).isSome

/-- The number of policies. -/
def size (r : Registry) : Nat := r.policies.length

/-- The names, ascending. -/
def names (r : Registry) : List String := r.policies.map (·.name)

/-- Puts a policy where its name belongs; a policy of the same name stays. -/
def insertIn (p : Policy) : List Policy → List Policy
  | [] => [p]
  | q :: rest =>
    if p.name < q.name then p :: q :: rest
    else if q.name < p.name then q :: insertIn p rest
    else q :: rest

theorem mem_of_mem_insertIn {p q : Policy} {l : List Policy} (h : q ∈ insertIn p l) :
    q = p ∨ q ∈ l := by
  induction l with
  | nil => simpa [insertIn] using h
  | cons f rest ih =>
    rw [insertIn] at h
    split at h
    · simpa using h
    · split at h
      · rcases List.mem_cons.mp h with rfl | h
        · simp
        · rcases ih h with h | h <;> simp [h]
      · exact .inr h

theorem pairwise_insertIn (p : Policy) {l : List Policy}
    (h : l.Pairwise (fun p q => p.name < q.name)) :
    (insertIn p l).Pairwise (fun p q => p.name < q.name) := by
  induction l with
  | nil => simp [insertIn]
  | cons f rest ih =>
    rw [insertIn]
    obtain ⟨hf, hr⟩ := List.pairwise_cons.mp h
    split
    · rename_i hp
      refine List.pairwise_cons.mpr ⟨fun a ha => ?_, h⟩
      rcases List.mem_cons.mp ha with rfl | ha
      · exact hp
      · exact KeyOrder.trans hp (hf a ha)
    · split
      · rename_i hp
        refine List.pairwise_cons.mpr ⟨fun a ha => ?_, ih hr⟩
        rcases mem_of_mem_insertIn ha with rfl | ha
        · exact hp
        · exact hf a ha
      · exact h

/-- The registry with a policy under a name that was free. -/
def insert (r : Registry) (p : Policy) : Registry :=
  ⟨insertIn p r.policies, pairwise_insertIn p r.ascending⟩

/-- Stores a policy. -/
def define (r : Registry) (p : Policy) : Except DefineError (List Notice × Registry) :=
  if !p.isDerived && isReservedName p.name then .error (.reservedName p.name)
  else match r.get? p.name with
    | some stored =>
      if p.isDerived && stored.same p then .ok ([], r) else .error (.duplicate p.name)
    | none =>
      .ok ([.event (.policyDefined p.name p.statements.length p.isDerived)], r.insert p)

/-- The registry with every policy simplified. -/
def simplifyAll (r : Registry) : Registry :=
  ⟨r.policies.map Policy.simplify, List.pairwise_map.mpr r.ascending⟩

end Registry

end RoutePolicy
