import RoutePolicy.Configuration.Basic
import RoutePolicy.Evaluation.Decision

/-!
# Scenarios

A scenario is a configuration, some routes, and the policies that the routes are offered to.
-/

set_option autoImplicit false

namespace RoutePolicy

/-- The scenarios: a transit peer, the contributors of aggregates, and leaking between routing
instances. -/
inductive Scenario where
  | peerImport
  | aggregate
  | vrfLeak
  deriving DecidableEq, Repr

namespace Scenario

/-- All scenarios, in the order of their numbers. -/
def all : List Scenario := [.peerImport, .aggregate, .vrfLeak]

/-- The name of a scenario. -/
def name : Scenario → String
  | .peerImport => "peer-import"
  | .aggregate => "aggregate"
  | .vrfLeak => "vrf-leak"

/-- The scenario of a name. -/
def ofName? (name : String) : Option Scenario := all.find? (fun s => s.name == name)

end Scenario

/-- A route with the label under which it is shown. -/
structure LabeledRoute where
  label : String
  route : Route
  deriving DecidableEq

/-- What became of a route that was offered to a policy. -/
structure RouteOutcome where
  label : String
  policy : String
  direction : Direction
  decision : Decision
  deriving DecidableEq

/-- The prefix with the given octets and length; a length above 32 counts as 32. -/
def net (a b c d : Nat) (length : UInt8) : Prefix :=
  if h : length ≤ 32 then .around (.ofOctets a b c d) length h
  else .around (.ofOctets a b c d) 32 (by decide)

end RoutePolicy
