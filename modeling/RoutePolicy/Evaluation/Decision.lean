import RoutePolicy.Route.Overlay

/-!
# What goes into an evaluation and what comes out

The direction of a route, the binary outcome of an evaluation, the three-valued verdict of a
policy that runs inside a condition, and the decision with the writes made on the way.
-/

set_option autoImplicit false

namespace RoutePolicy

/-- The outcome of an evaluation. -/
inductive Action where
  | accept
  | reject
  deriving DecidableEq, Repr

/-- The name of an action. -/
def Action.name : Action → String
  | .accept => "accept"
  | .reject => "reject"

/-- Which way a route moves: into a table, out of it, or into an aggregate that is made of it. -/
inductive Direction where
  | inbound
  | outbound
  | generation
  deriving DecidableEq, Repr

/-- The name of a direction. -/
def Direction.name : Direction → String
  | .inbound => "import"
  | .outbound => "export"
  | .generation => "generation"

/-- The action on a route that no policy decides, unless the caller gives one. -/
def Direction.conventionalAction : Direction → Action
  | .inbound => .accept
  | .outbound | .generation => .reject

/-- The verdict of a policy inside a condition. -/
inductive Verdict where
  | matched (value : Bool)
  | unmatched
  deriving DecidableEq, Repr

namespace Verdict

/-- Whether the verdict counts as true; an undecided one does not. -/
def isTrue : Verdict → Bool
  | .matched b => b
  | .unmatched => false

/-- Whether the verdict decides anything. -/
def isDefinite : Verdict → Bool
  | .matched _ => true
  | .unmatched => false

/-- The verdict in messages. -/
def describe : Verdict → String
  | .matched true => "Matched(true)"
  | .matched false => "Matched(false)"
  | .unmatched => "Unmatched"

end Verdict

/-- The result of an evaluation: the action and the writes made on the way to it. -/
structure Decision where
  result : Action
  attributes : Overlay
  deriving DecidableEq

namespace Decision

/-- Whether the route is accepted. -/
def isAccepted (d : Decision) : Bool := d.result == .accept

/-- The route with the writes of the decision made. -/
def applyTo (d : Decision) (r : Route) : Except Misfit Route := d.attributes.applyTo r

end Decision

end RoutePolicy
