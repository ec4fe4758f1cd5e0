import RoutePolicy.Registry.Link

/-!
# Provenance

The sources of a policy are the user policies from which it can be reached through calls and
conditions, without passing through a derived policy.  A policy written by a user is a source of
itself.  Default policies do not count as calls.
-/

set_option autoImplicit false

namespace RoutePolicy

namespace Statement

mutual

/-- The policies a statement can call, by place. -/
def callees : Statement → List PolicyId
  | .branch guard a b => guard.references.filterMap (·.link) ++ calleesAll a ++ calleesAll b
  | .call target => target.link.toList
  | .setDefaultPolicy _ | .write _ _ | .comment _ | .control _ => []

/-- The policies several statements can call. -/
def calleesAll : List Statement → List PolicyId
  | [] => []
  | s :: ss => callees s ++ calleesAll ss

end

end Statement

/-- A policy as seen by provenance: its name, whether it was derived, and what it can call. -/
structure Caller where
  id : PolicyId
  name : String
  isDerived : Bool
  callees : List PolicyId

/-- The policies of a list, in the view of provenance. -/
def callersOf (policies : List Policy) : List Caller :=
  policies.mapIdx fun i p => ⟨⟨i⟩, p.name, p.isDerived, Statement.calleesAll p.statements⟩

/-- Whether a caller can call a policy at one of the places. -/
def Caller.calls (c : Caller) (places : List PolicyId) : Bool := c.callees.any places.contains

/-- Those of the callers that reach a place of `frontier` through one another.  A round finds the
direct callers, which are the next frontier; every round but the last finds one at least, so that as
many rounds as there are callers find all of them. -/
def reachingFrom : Nat → List Caller → List PolicyId → List Caller
  | 0, _, _ => []
  | rounds + 1, callers, frontier =>
    match callers.filter (·.calls frontier) with
    | [] => []
    | found =>
      found ++ reachingFrom rounds (callers.filter (!·.calls frontier)) (found.map (·.id))

/-- The names of the user policies from which the policy at a place can be reached. -/
def sourcesOf (callers : List Caller) (target : PolicyId) : SortedSet String :=
  let users := callers.filter (!·.isDerived)
  let others := users.filter (·.id != target)
  let reaching := users.filter (·.id == target) ++ reachingFrom others.length others [target]
  SortedSet.ofList (reaching.map (·.name))

end RoutePolicy
