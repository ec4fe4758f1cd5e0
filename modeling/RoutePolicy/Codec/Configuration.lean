import RoutePolicy.Codec.Route
import RoutePolicy.Configuration.Basic

/-!
# Configurations as data

The same decoders read JSON and the data of a configuration file, according to a `Dialect`.
-/

set_option autoImplicit false

namespace RoutePolicy

namespace MatchType

/-- How a filter selects, as data. -/
def toJson : MatchType → Json
  | .exact => .string "exact"
  | .orLonger => .string "orlonger"
  | .longer => .string "longer"
  | .upTo n => .object [("upto", .nat n.toNat)]
  | .lengthRange a b =>
    .object [("prefix-length-range", .object [("min", .nat a.toNat), ("max", .nat b.toNat)])]

/-- The kinds of selection without bounds. -/
def plain : List (String × MatchType) :=
  [("exact", .exact), ("orlonger", .orLonger), ("longer", .longer)]

/-- How a filter selects, from data. -/
def ofJson? (d : Dialect) (v : Json) : Option MatchType :=
  match v.choice? with
  | some ("upto", some v) => v.uint8?.map .upTo
  | some ("prefix-length-range", some v) => do
    let r ← if d.closedAlternatives then Record.of? d ["min", "max"] v else Record.named? v
    if d.closedAlternatives && !r.hasOnly ["min", "max"] then none
    let a ← r.required 0 "min" Json.uint8?
    let b ← r.required 1 "max" Json.uint8?
    return .lengthRange a b
  | _ => v.oneOf? d plain

end MatchType

namespace ThenClause

/-- The actions that carry nothing. -/
def plain : List (String × ThenClause) :=
  [("accept", .accept), ("reject", .reject), ("next-term", .nextTerm), ("next-policy", .nextPolicy),
    ("default-action-accept", .defaultAccept), ("default-action-reject", .defaultReject)]

/-- A list of communities as data. -/
def communitiesToJson (cs : List Community) : Json := .array (cs.map Community.toJson)

/-- An action as data. -/
def toJson : ThenClause → Json
  | .accept => .string "accept"
  | .reject => .string "reject"
  | .nextTerm => .string "next-term"
  | .nextPolicy => .string "next-policy"
  | .defaultAccept => .string "default-action-accept"
  | .defaultReject => .string "default-action-reject"
  | .localPreference n => .object [("local-preference", wordToJson n)]
  | .metric n => .object [("metric", wordToJson n)]
  | .metricAdd n => .object [("metric-add", wordToJson n)]
  | .metricSubtract n => .object [("metric-subtract", wordToJson n)]
  | .metricType t => .object [("metric-type", t.toJson)]
  | .tag n => .object [("tag", wordToJson n)]
  | .origin o => .object [("origin", o.toJson)]
  | .nextHop a => .object [("next-hop", a.toJson)]
  | .communityAdd cs => .object [("community-add", communitiesToJson cs)]
  | .communityDelete cs => .object [("community-delete", communitiesToJson cs)]
  | .communitySet cs => .object [("community-set", communitiesToJson cs)]
  | .asPathPrepend ns => .object [("as-path-prepend", wordsToJson ns)]
  | .unsupported s => .object [("unsupported", .string s)]

/-- An action from data. -/
def ofJson? (d : Dialect) (v : Json) : Option ThenClause :=
  match v.choice? with
  | some ("local-preference", some v) => v.uint32?.map .localPreference
  | some ("metric", some v) => v.uint32?.map .metric
  | some ("metric-add", some v) => v.uint32?.map .metricAdd
  | some ("metric-subtract", some v) => v.uint32?.map .metricSubtract
  | some ("metric-type", some v) => (MetricType.ofJson? d v).map .metricType
  | some ("tag", some v) => v.uint32?.map .tag
  | some ("origin", some v) => (OriginType.ofJson? d v).map .origin
  | some ("next-hop", some v) => (Address.ofJson? v).map .nextHop
  | some ("community-add", some v) => (v.list? Community.ofJson?).map .communityAdd
  | some ("community-delete", some v) => (v.list? Community.ofJson?).map .communityDelete
  | some ("community-set", some v) => (v.list? Community.ofJson?).map .communitySet
  | some ("as-path-prepend", some v) => (v.list? Json.uint32?).map .asPathPrepend
  | some ("unsupported", some v) => v.string?.map .unsupported
  | _ => v.oneOf? d plain

end ThenClause

namespace RouteFilter

/-- A filter as data. -/
def toJson (f : RouteFilter) : Json :=
  .object [("prefix", f.base.toJson), ("match", f.matchType.toJson),
    ("then", .array (f.actions.map ThenClause.toJson))]

/-- A filter from data. -/
def ofJson? (d : Dialect) (v : Json) : Option RouteFilter := do
  let r ← Record.of? d ["prefix", "match", "then"] v
  let base ← r.required 0 "prefix" Prefix.ofJson?
  let matchType ← r.defaulted 1 "match" .exact (MatchType.ofJson? d)
  let actions ← r.defaulted 2 "then" [] (·.list? (ThenClause.ofJson? d))
  return { base, matchType, actions }

end RouteFilter

namespace FromClause

/-- A path pattern as data. -/
def patternToJson : PathPattern → Json
  | .contains n => .object [("contains", wordToJson n)]
  | .originAs n => .object [("origin-as", wordToJson n)]
  | .neighborAs n => .object [("neighbor-as", wordToJson n)]
  | .empty => .string "empty"

/-- A path pattern from data. -/
def patternOfJson? (d : Dialect) (v : Json) : Option PathPattern :=
  match v.choice? with
  | some ("contains", some v) => v.uint32?.map .contains
  | some ("origin-as", some v) => v.uint32?.map .originAs
  | some ("neighbor-as", some v) => v.uint32?.map .neighborAs
  | _ => v.oneOf? d [("empty", .empty)]

/-- A match clause as data. -/
def toJson : FromClause → Json
  | .protocol p => .object [("protocol", p.toJson)]
  | .prefixList name => .object [("prefix-list", .string name)]
  | .routeFilter f => .object [("route-filter", f.toJson)]
  | .community c => .object [("community", c.toJson)]
  | .asPath p => .object [("as-path", patternToJson p)]
  | .tag n => .object [("tag", wordToJson n)]
  | .localPreference n => .object [("local-preference", wordToJson n)]
  | .metric n => .object [("metric", wordToJson n)]
  | .interface s => .object [("interface", .string s)]
  | .vrf s => .object [("instance", .string s)]
  | .family f => .object [("family", f.toJson)]
  | .color n => .object [("color", wordToJson n)]
  | .policy names => .object [("policy", .strings names)]
  | .policyChain names => .object [("policy-chain", .strings names)]
  | .unsupported s => .object [("unsupported", .string s)]

/-- A match clause from data. -/
def ofJson? (d : Dialect) (v : Json) : Option FromClause :=
  match v.choice? with
  | some ("protocol", some v) => (Protocol.ofJson? d v).map .protocol
  | some ("prefix-list", some v) => v.string?.map .prefixList
  | some ("route-filter", some v) => (RouteFilter.ofJson? d v).map .routeFilter
  | some ("community", some v) => (Community.ofJson? v).map .community
  | some ("as-path", some v) => (patternOfJson? d v).map .asPath
  | some ("tag", some v) => v.uint32?.map .tag
  | some ("local-preference", some v) => v.uint32?.map .localPreference
  | some ("metric", some v) => v.uint32?.map .metric
  | some ("interface", some v) => v.string?.map .interface
  | some ("instance", some v) => v.string?.map .vrf
  | some ("family", some v) => (AddressFamily.ofJson? d v).map .family
  | some ("color", some v) => v.uint32?.map .color
  | some ("policy", some v) => (v.list? Json.string?).map .policy
  | some ("policy-chain", some v) => (v.list? Json.string?).map .policyChain
  | some ("unsupported", some v) => v.string?.map .unsupported
  | _ => none

end FromClause

namespace Term

/-- A term as data. -/
def toJson (t : Term) : Json :=
  .object [("name", .string t.name), ("from", .array (t.clauses.map FromClause.toJson)),
    ("then", .array (t.actions.map ThenClause.toJson))]

/-- A term from data. -/
def ofJson? (d : Dialect) (v : Json) : Option Term := do
  let r ← Record.of? d ["name", "from", "then"] v
  let name ← r.defaulted 0 "name" "" Json.string?
  let clauses ← r.defaulted 1 "from" [] (·.list? (FromClause.ofJson? d))
  let actions ← r.defaulted 2 "then" [] (·.list? (ThenClause.ofJson? d))
  return { name, clauses, actions }

end Term

namespace PolicyStatement

/-- A policy statement as data. -/
def toJson (s : PolicyStatement) : Json :=
  .object [("name", .string s.name), ("terms", .array (s.terms.map Term.toJson)),
    ("default-term", Json.orNull Term.toJson s.defaultTerm)]

/-- A policy statement from data. -/
def ofJson? (d : Dialect) (v : Json) : Option PolicyStatement := do
  let r ← Record.of? d ["name", "terms", "default-term"] v
  let name ← r.required 0 "name" Json.string?
  let terms ← r.defaulted 1 "terms" [] (·.list? (Term.ofJson? d))
  let defaultTerm ← r.optional 2 "default-term" (Term.ofJson? d)
  return { name, terms, defaultTerm }

end PolicyStatement

namespace Peer

/-- A peer as data. -/
def toJson (p : Peer) : Json :=
  .object [("name", .string p.name), ("protocol", p.protocol.toJson),
    ("import", .strings p.inbound), ("export", .strings p.outbound)]

/-- A peer from data. -/
def ofJson? (d : Dialect) (v : Json) : Option Peer := do
  let r ← Record.of? d ["name", "protocol", "import", "export"] v
  let name ← r.required 0 "name" Json.string?
  let protocol ← r.defaulted 1 "protocol" .bgp (Protocol.ofJson? d)
  let inbound ← r.defaulted 2 "import" [] (·.list? Json.string?)
  let outbound ← r.defaulted 3 "export" [] (·.list? Json.string?)
  return { name, protocol, inbound, outbound }

end Peer

namespace Aggregate

/-- An aggregate as data. -/
def toJson (a : Aggregate) : Json :=
  .object [("prefix", a.base.toJson), ("policies", .strings a.policies)]

/-- An aggregate from data. -/
def ofJson? (d : Dialect) (v : Json) : Option Aggregate := do
  let r ← Record.of? d ["prefix", "policies"] v
  let base ← r.required 0 "prefix" Prefix.ofJson?
  let policies ← r.defaulted 1 "policies" [] (·.list? Json.string?)
  return { base, policies }

end Aggregate

namespace RibGroup

/-- A RIB group as data. -/
def toJson (g : RibGroup) : Json :=
  .object [("name", .string g.name), ("protocol", g.protocol.toJson),
    ("import", .strings g.inbound)]

/-- A RIB group from data. -/
def ofJson? (d : Dialect) (v : Json) : Option RibGroup := do
  let r ← Record.of? d ["name", "protocol", "import"] v
  let name ← r.required 0 "name" Json.string?
  let protocol ← r.defaulted 1 "protocol" .bgp (Protocol.ofJson? d)
  let inbound ← r.defaulted 2 "import" [] (·.list? Json.string?)
  return { name, protocol, inbound }

end RibGroup

namespace InstanceImport

/-- An instance import as data. -/
def toJson (i : InstanceImport) : Json :=
  .object [("vrf", .string i.vrf), ("policies", .strings i.policies)]

/-- An instance import from data. -/
def ofJson? (d : Dialect) (v : Json) : Option InstanceImport := do
  let r ← Record.of? d ["vrf", "policies"] v
  let vrf ← r.required 0 "vrf" Json.string?
  let policies ← r.defaulted 1 "policies" [] (·.list? Json.string?)
  return { vrf, policies }

end InstanceImport

namespace PrefixLists

/-- Prefix lists as data. -/
def toJson (m : PrefixLists) : Json :=
  .object (m.entries.map fun e => (e.1, .array (e.2.map Prefix.toJson)))

/-- Prefix lists from data. -/
def ofJson? (v : Json) : Option PrefixLists :=
  (v.entries? (·.list? Prefix.ofJson?)).map SortedMap.ofList

end PrefixLists

namespace Configuration

/-- A configuration as data. -/
def toJson (c : Configuration) : Json :=
  .object
    [("prefix-lists", c.prefixLists.toJson),
      ("policy-statements", .array (c.policyStatements.map PolicyStatement.toJson)),
      ("peers", .array (c.peers.map Peer.toJson)),
      ("aggregates", .array (c.aggregates.map Aggregate.toJson)),
      ("rib-groups", .array (c.ribGroups.map RibGroup.toJson)),
      ("instance-imports", .array (c.instanceImports.map InstanceImport.toJson)),
      ("simplify", .bool c.simplify)]

/-- The names of the parts of a configuration, in the order of their declaration. -/
def fieldNames : List String :=
  ["prefix-lists", "policy-statements", "peers", "aggregates", "rib-groups", "instance-imports",
    "simplify"]

/-- A configuration from data. -/
def ofJson? (d : Dialect) (v : Json) : Option Configuration := do
  let r ← Record.of? d fieldNames v
  let prefixLists ← r.defaulted 0 "prefix-lists" .empty PrefixLists.ofJson?
  let policyStatements ← r.defaulted 1 "policy-statements" [] (·.list? (PolicyStatement.ofJson? d))
  let peers ← r.defaulted 2 "peers" [] (·.list? (Peer.ofJson? d))
  let aggregates ← r.defaulted 3 "aggregates" [] (·.list? (Aggregate.ofJson? d))
  let ribGroups ← r.defaulted 4 "rib-groups" [] (·.list? (RibGroup.ofJson? d))
  let instanceImports ← r.defaulted 5 "instance-imports" [] (·.list? (InstanceImport.ofJson? d))
  let simplify ← r.defaulted 6 "simplify" false Json.bool?
  return { prefixLists, policyStatements, peers, aggregates, ribGroups, instanceImports, simplify }

end Configuration

end RoutePolicy
