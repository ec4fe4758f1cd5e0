import RoutePolicy.Ordered.SortedMap
import RoutePolicy.Policy.Condition
import RoutePolicy.Prefix.Range
import RoutePolicy.Route.Attribute
import RoutePolicy.Route.Protocol

/-!
# Configurations

What a vendor's configuration says about policies: policy statements made of terms, and the peers,
aggregates, RIB groups and instances that use them.

* `FromClause`, `ThenClause`, `Term`, `PolicyStatement` — the statements;
* `RouteFilter.range` — the prefixes that a filter selects;
* `Configuration` — everything for one device.
-/

set_option autoImplicit false

namespace RoutePolicy

/-- How a filter's prefix selects routes. -/
inductive MatchType where
  | exact
  | orLonger
  | longer
  | upTo (maxLength : UInt8)
  | lengthRange (minLength maxLength : UInt8)
  deriving DecidableEq, Repr

/-- An action of a term. -/
inductive ThenClause where
  | accept
  | reject
  | nextTerm
  | nextPolicy
  | defaultAccept
  | defaultReject
  | localPreference (value : UInt32)
  | metric (value : UInt32)
  | metricAdd (amount : UInt32)
  | metricSubtract (amount : UInt32)
  | metricType (value : MetricType)
  | tag (value : UInt32)
  | origin (value : OriginType)
  | nextHop (address : Address)
  | communityAdd (communities : List Community)
  | communityDelete (communities : List Community)
  | communitySet (communities : List Community)
  | asPathPrepend (asns : List UInt32)
  | unsupported (construct : String)
  deriving DecidableEq

/-- A filter: a prefix, how it selects, and actions of its own. -/
structure RouteFilter where
  base : Prefix
  matchType : MatchType := .exact
  actions : List ThenClause := []
  deriving DecidableEq

/-- The prefixes that a filter selects. -/
def RouteFilter.range (f : RouteFilter) : PrefixRange :=
  match f.matchType with
  | .exact => .exact f.base
  | .orLonger => .orLonger f.base
  | .longer => .longer f.base
  | .upTo maxLength => .upTo f.base maxLength
  | .lengthRange minLength maxLength => .lengthRange f.base minLength maxLength

/-- A match clause of a term. -/
inductive FromClause where
  | protocol (protocol : Protocol)
  | prefixList (name : String)
  | routeFilter (filter : RouteFilter)
  | community (community : Community)
  | asPath (pattern : PathPattern)
  | tag (value : UInt32)
  | localPreference (value : UInt32)
  | metric (value : UInt32)
  | interface (name : String)
  | vrf (name : String)
  | family (family : AddressFamily)
  | color (value : UInt32)
  | policy (names : List String)
  | policyChain (names : List String)
  | unsupported (construct : String)
  deriving DecidableEq

/-- A term: when all its kinds of match clauses hold, its actions are taken. -/
structure Term where
  name : String := ""
  clauses : List FromClause := []
  actions : List ThenClause := []
  deriving DecidableEq

/-- Whether a term has neither match clauses nor actions. -/
def Term.isEmpty (t : Term) : Bool := t.clauses.isEmpty && t.actions.isEmpty

/-- A named list of terms, and a term for what they leave undecided. -/
structure PolicyStatement where
  name : String
  terms : List Term := []
  defaultTerm : Option Term := none
  deriving DecidableEq

/-- A neighbor with the policies for both directions. -/
structure Peer where
  name : String
  protocol : Protocol := .bgp
  inbound : List String := []
  outbound : List String := []
  deriving DecidableEq, Repr

/-- An aggregate route with the policies for its contributors. -/
structure Aggregate where
  base : Prefix
  policies : List String := []
  deriving DecidableEq

/-- A group of tables that receive routes of a protocol. -/
structure RibGroup where
  name : String
  protocol : Protocol := .bgp
  inbound : List String := []
  deriving DecidableEq, Repr

/-- The import of routes of other instances into one. -/
structure InstanceImport where
  vrf : String
  policies : List String := []
  deriving DecidableEq, Repr

/-- Prefix lists by name. -/
abbrev PrefixLists := SortedMap String (List Prefix)

/-- A configuration of one device. -/
structure Configuration where
  prefixLists : PrefixLists := .empty
  policyStatements : List PolicyStatement := []
  peers : List Peer := []
  aggregates : List Aggregate := []
  ribGroups : List RibGroup := []
  instanceImports : List InstanceImport := []
  simplify : Bool := false
  deriving DecidableEq

end RoutePolicy
