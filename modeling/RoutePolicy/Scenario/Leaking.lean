import RoutePolicy.Scenario.Basic

/-!
# Leaking between routing instances

Routes of the instances `blue` and `green` are offered to a RIB group and to the import into the
instance `red`.  All policies are simplified.
-/

set_option autoImplicit false

namespace RoutePolicy

namespace Scenario.Leaking

/-- The RIB group. -/
def ribGroup : String := "BLUE-TO-RED"

/-- The instance that imports routes. -/
def target : String := "red"

/-- The community of routes that may be shared. -/
def shared : Community := .ofHalves 65000 300

/-- Accepts the shared routes of `blue` and rejects its other ones. -/
def leakFromBlue : PolicyStatement where
  name := "LEAK-FROM-BLUE"
  terms :=
    [{ name := "shared", clauses := [.vrf "blue", .community shared], actions := [.accept] },
     { name := "private", clauses := [.vrf "blue"], actions := [.reject] }]

/-- Accepts static routes with a tag, and removes the tag. -/
def leakStatic : PolicyStatement where
  name := "LEAK-STATIC"
  terms :=
    [{ name := "tagged", clauses := [.protocol .static, .tag 42], actions := [.accept, .tag 0] }]

/-- The configuration. -/
def configuration : Configuration where
  policyStatements := [leakFromBlue, leakStatic]
  ribGroups := [{ name := ribGroup, inbound := ["LEAK-FROM-BLUE"] }]
  instanceImports := [{ vrf := target, policies := ["LEAK-FROM-BLUE", "LEAK-STATIC"] }]
  simplify := true

/-- The routes of the other instances. -/
def routes : List LabeledRoute :=
  [⟨"blue-shared",
      { network := net 10 30 1 0 24, protocol := .bgp, sourceVrf := some "blue",
        communities := .ofList [shared] }⟩,
    ⟨"blue-private", { network := net 10 30 2 0 24, protocol := .bgp, sourceVrf := some "blue" }⟩,
    ⟨"green-bgp", { network := net 10 40 1 0 24, protocol := .bgp, sourceVrf := some "green" }⟩,
    ⟨"green-static",
      { network := net 10 40 9 0 24, protocol := .static, sourceVrf := some "green", tag := 42 }⟩]

end Scenario.Leaking

end RoutePolicy
