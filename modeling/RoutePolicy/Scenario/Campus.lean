import RoutePolicy.Scenario.Basic

/-!
# The contributors of aggregates

Two aggregates of a campus network; laboratories and the routes of the IGP may not contribute to
the first one.
-/

set_option autoImplicit false

namespace RoutePolicy

namespace Scenario.Campus

/-- The aggregates. -/
def aggregates : List Prefix := [net 10 0 0 0 8, net 172 16 0 0 12]

/-- Rejects laboratories and the routes of the IGP. -/
def noLabContributors : PolicyStatement where
  name := "NO-LAB-CONTRIBUTORS"
  terms :=
    [{ name := "lab"
       clauses := [.routeFilter { base := net 10 99 0 0 16, matchType := .orLonger }]
       actions := [.reject] },
     { name := "igp", clauses := [.protocol .ospf], actions := [.reject] }]

/-- The configuration. -/
def configuration : Configuration where
  policyStatements := [noLabContributors]
  aggregates :=
    [{ base := net 10 0 0 0 8, policies := ["NO-LAB-CONTRIBUTORS"] }, { base := net 172 16 0 0 12 }]

/-- A route of the campus network. -/
def candidate (label : String) (network : Prefix) (protocol : Protocol) : LabeledRoute where
  label := label
  route := { network, protocol }

/-- The candidates for a contribution. -/
def candidates : List LabeledRoute :=
  [candidate "core" (net 10 1 0 0 16) .static,
    candidate "lab" (net 10 99 4 0 24) .static,
    candidate "igp" (net 10 2 0 0 16) .ospf,
    candidate "aggregate-itself" (net 10 0 0 0 8) .static,
    candidate "dorms" (net 172 16 5 0 24) .static,
    candidate "guest" (net 192 168 0 0 16) .static]

end Scenario.Campus

end RoutePolicy
