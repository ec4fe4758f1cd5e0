import RoutePolicy.Scenario.Basic

/-!
# A transit peer

Bogons are filtered, the routes of customers are tagged and preferred, and only those are offered
to the peer again.  The import chain names a policy that was never written.
-/

set_option autoImplicit false

namespace RoutePolicy

namespace Scenario.Transit

/-- The peer. -/
def peer : String := "transit-192.0.2.1"

/-- The import chain of the peer. -/
def importChain : List String := ["REJECT-BOGONS", "CUSTOMER-IN", "PARTNER-IN"]

/-- The export chain of the peer. -/
def exportChain : List String := ["EXPORT-CUSTOMERS"]

/-- A filter for a prefix and everything inside it. -/
def inside (p : Prefix) : FromClause := .routeFilter { base := p, matchType := .orLonger }

/-- Rejects private addresses, the default route and prefixes that are too specific. -/
def rejectBogons : PolicyStatement where
  name := "REJECT-BOGONS"
  terms :=
    [{ name := "rfc1918"
       clauses := [inside (net 10 0 0 0 8), inside (net 172 16 0 0 12), inside (net 192 168 0 0 16)]
       actions := [.reject] },
     { name := "default-route", clauses := [.prefixList "MARTIANS"], actions := [.reject] },
     { name := "too-specific"
       clauses := [.routeFilter { base := .everything, matchType := .lengthRange 25 32 }]
       actions := [.reject] }]

/-- Accepts the routes of customers, and prefers routes through one AS less. -/
def customerIn : PolicyStatement where
  name := "CUSTOMER-IN"
  terms :=
    [{ name := "customers"
       clauses := [.prefixList "CUSTOMER-NETS", .asPath (.neighborAs 64500)]
       actions := [.accept, .communityAdd [.ofHalves 65000 100], .localPreference 200] },
     { name := "prepended"
       clauses := [.asPath (.contains 64666)]
       actions := [.nextPolicy, .localPreference 50] },
     { name := "legacy-regex"
       clauses := [.unsupported "as-path-regex \".* 64999 .*\""]
       actions := [.accept] }]

/-- Accepts tagged routes, with the own AS prepended twice. -/
def exportCustomers : PolicyStatement where
  name := "EXPORT-CUSTOMERS"
  terms :=
    [{ name := "customers"
       clauses := [.community (.ofHalves 65000 100)]
       actions := [.accept, .asPathPrepend [65000, 65000]] },
     { name := "rest", actions := [.reject] }]

/-- The configuration. -/
def configuration : Configuration where
  prefixLists := .ofList
    [("CUSTOMER-NETS", [net 203 0 113 0 24, net 198 51 100 0 24]), ("MARTIANS", [.everything])]
  policyStatements := [rejectBogons, customerIn, exportCustomers]
  peers := [{ name := peer, inbound := importChain, outbound := exportChain }]

/-- A route received from the peer. -/
def received (label : String) (network : Prefix) (asPath : List UInt32) : LabeledRoute where
  label := label
  route := { network, protocol := .bgp, asPath, nextHop := .ofOctets 192 0 2 1 }

/-- The routes received from the peer. -/
def feed : List LabeledRoute :=
  [received "customer" (net 203 0 113 0 24) [64500, 64501],
    received "rfc1918" (net 10 20 0 0 16) [64510, 64520],
    received "default" .everything [64510],
    received "too-specific" (net 198 51 100 128 25) [64510, 64502],
    received "prepended" (net 192 0 2 0 24) [64510, 64666, 64666],
    received "internet" (net 100 100 0 0 16) [64510, 64520]]

end Scenario.Transit

end RoutePolicy
