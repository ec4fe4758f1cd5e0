import RoutePolicy.Json.Decode
import RoutePolicy.Prefix.Range
import RoutePolicy.Prefix.Text
import RoutePolicy.Route.Overlay

/-!
# Routes and their attributes as data

For each type a `toJson` and an `ofJson?`.  Addresses, prefixes and communities are texts, sets are
ascending lists, and every field of a route may be left out.
-/

set_option autoImplicit false

namespace RoutePolicy

namespace Address

/-- An address as data. -/
def toJson (a : Address) : Json := .string a.text

/-- An address from data; no blanks are allowed. -/
def ofJson? (v : Json) : Option Address := v.string?.bind fun s => read? s.toList

end Address

namespace Prefix

/-- A prefix as data. -/
def toJson (p : Prefix) : Json := .string p.text

/-- A prefix from data. -/
def ofJson? (v : Json) : Option Prefix :=
  v.string?.bind fun s =>
    match parse s with
    | .ok p => some p
    | .error _ => none

end Prefix

namespace Community

/-- A community as data. -/
def toJson (c : Community) : Json := .string c.text

/-- A community from data. -/
def ofJson? (v : Json) : Option Community := v.string?.bind parse?

end Community

/-- A set of communities as data. -/
def CommunitySet.toJson (s : CommunitySet) : Json := .array (s.toList.map Community.toJson)

/-- A set of communities from data, in any order and with repetitions. -/
def CommunitySet.ofJson? (v : Json) : Option CommunitySet :=
  (v.list? Community.ofJson?).map SortedSet.ofList

/-- A number of 32 bits as data. -/
def wordToJson (n : UInt32) : Json := .nat n.toNat

/-- A list of numbers as data. -/
def wordsToJson (ns : List UInt32) : Json := .array (ns.map wordToJson)

/-- A protocol as data. -/
def Protocol.toJson (p : Protocol) : Json := .string p.name

/-- A protocol from data, by its first name. -/
def Protocol.ofJson? (d : Dialect) (v : Json) : Option Protocol :=
  v.oneOf? d (all.map fun p => (p.name, p))

/-- The name of an origin. -/
def OriginType.name : OriginType → String
  | .igp => "igp"
  | .egp => "egp"
  | .incomplete => "incomplete"

/-- An origin as data. -/
def OriginType.toJson (o : OriginType) : Json := .string o.name

/-- An origin from data. -/
def OriginType.ofJson? (d : Dialect) (v : Json) : Option OriginType :=
  v.oneOf? d ([igp, egp, incomplete].map fun o => (o.name, o))

/-- The name of a metric type. -/
def MetricType.name : MetricType → String
  | .type1 => "type1"
  | .type2 => "type2"

/-- A metric type as data. -/
def MetricType.toJson (t : MetricType) : Json := .string t.name

/-- A metric type from data. -/
def MetricType.ofJson? (d : Dialect) (v : Json) : Option MetricType :=
  v.oneOf? d ([type1, type2].map fun t => (t.name, t))

/-- The name of an address family. -/
def AddressFamily.name : AddressFamily → String
  | .ipv4Unicast => "ipv4-unicast"
  | .ipv6Unicast => "ipv6-unicast"

/-- An address family as data. -/
def AddressFamily.toJson (f : AddressFamily) : Json := .string f.name

/-- An address family from data. -/
def AddressFamily.ofJson? (d : Dialect) (v : Json) : Option AddressFamily :=
  v.oneOf? d ([ipv4Unicast, ipv6Unicast].map fun f => (f.name, f))

namespace RouteField

/-- The name of a field. -/
def name : RouteField → String
  | .communities => "communities"
  | .origin => "origin"
  | .nextHop => "next-hop"
  | .metricType => "metric-type"
  | .localPreference => "local-preference"
  | .metric => "metric"
  | .tag => "tag"
  | .asPath => "as-path"

/-- The field of a name. -/
def ofName? (name : String) : Option RouteField := all.find? (fun f => f.name == name)

/-- A field as data. -/
def toJson (f : RouteField) : Json := .string f.name

/-- A field from data. -/
def ofJson? (v : Json) : Option RouteField := v.oneOf? .json (all.map fun f => (f.name, f))

end RouteField

namespace AttributeValue

/-- A value as data: an object whose only field names its shape. -/
def toJson : AttributeValue → Json
  | .communities s => .object [("communities", s.toJson)]
  | .origin o => .object [("origin", o.toJson)]
  | .nextHop a => .object [("next_hop", a.toJson)]
  | .metricType t => .object [("metric_type", t.toJson)]
  | .number n => .object [("number", wordToJson n)]
  | .asPath path => .object [("as_path", wordsToJson path)]

/-- A value from data. -/
def ofJson? (v : Json) : Option AttributeValue :=
  match v.choice? with
  | some ("communities", some v) => (CommunitySet.ofJson? v).map .communities
  | some ("origin", some v) => (OriginType.ofJson? .json v).map .origin
  | some ("next_hop", some v) => (Address.ofJson? v).map .nextHop
  | some ("metric_type", some v) => (MetricType.ofJson? .json v).map .metricType
  | some ("number", some v) => v.uint32?.map .number
  | some ("as_path", some v) => (v.list? Json.uint32?).map .asPath
  | _ => none

end AttributeValue

namespace PrefixRange

/-- A range as data. -/
def toJson (r : PrefixRange) : Json :=
  .object [("prefix", r.base.toJson), ("min_length", .nat r.minLength.toNat),
    ("max_length", .nat r.maxLength.toNat)]

/-- A range from data. -/
def ofJson? (v : Json) : Option PrefixRange := do
  let r ← Record.of? .json ["prefix", "min_length", "max_length"] v
  let base ← r.required 0 "prefix" Prefix.ofJson?
  let minLength ← r.required 1 "min_length" Json.uint8?
  let maxLength ← r.required 2 "max_length" Json.uint8?
  return { base, minLength, maxLength }

end PrefixRange

namespace PrefixSet

/-- A set as data. -/
def toJson (s : PrefixSet) : Json := .object [("ranges", .array (s.ranges.map PrefixRange.toJson))]

/-- A set from data. -/
def ofJson? (v : Json) : Option PrefixSet := do
  let r ← Record.of? .json ["ranges"] v
  let ranges ← r.required 0 "ranges" (·.list? PrefixRange.ofJson?)
  return { ranges }

end PrefixSet

namespace Route

/-- A route as data. -/
def toJson (r : Route) : Json :=
  .object
    [("prefix", r.network.toJson), ("protocol", r.protocol.toJson), ("next_hop", r.nextHop.toJson),
      ("as_path", wordsToJson r.asPath), ("communities", r.communities.toJson),
      ("local_preference", wordToJson r.localPreference), ("metric", wordToJson r.metric),
      ("metric_type", r.metricType.toJson), ("tag", wordToJson r.tag), ("origin", r.origin.toJson),
      ("source_vrf", Json.orNull .string r.sourceVrf),
      ("source_interface", Json.orNull .string r.sourceInterface),
      ("address_family", r.addressFamily.toJson), ("color", Json.orNull wordToJson r.color)]

/-- The names of the fields of a route, in the order of their declaration. -/
def fieldNames : List String :=
  ["prefix", "protocol", "next_hop", "as_path", "communities", "local_preference", "metric",
    "metric_type", "tag", "origin", "source_vrf", "source_interface", "address_family", "color"]

/-- A route from data; what is left out is as in a route without attributes. -/
def ofJson? (v : Json) : Option Route := do
  let r ← Record.of? .json fieldNames v
  let plain : Route := {}
  let network ← r.defaulted 0 "prefix" plain.network Prefix.ofJson?
  let protocol ← r.defaulted 1 "protocol" plain.protocol (Protocol.ofJson? .json)
  let nextHop ← r.defaulted 2 "next_hop" plain.nextHop Address.ofJson?
  let asPath ← r.defaulted 3 "as_path" plain.asPath (·.list? Json.uint32?)
  let communities ← r.defaulted 4 "communities" plain.communities CommunitySet.ofJson?
  let localPreference ← r.defaulted 5 "local_preference" plain.localPreference Json.uint32?
  let metric ← r.defaulted 6 "metric" plain.metric Json.uint32?
  let metricType ← r.defaulted 7 "metric_type" plain.metricType (MetricType.ofJson? .json)
  let tag ← r.defaulted 8 "tag" plain.tag Json.uint32?
  let origin ← r.defaulted 9 "origin" plain.origin (OriginType.ofJson? .json)
  let sourceVrf ← r.optional 10 "source_vrf" Json.string?
  let sourceInterface ← r.optional 11 "source_interface" Json.string?
  let addressFamily ←
    r.defaulted 12 "address_family" plain.addressFamily (AddressFamily.ofJson? .json)
  let color ← r.optional 13 "color" Json.uint32?
  return { network, protocol, nextHop, asPath, communities, localPreference, metric, metricType,
           tag, origin, sourceVrf, sourceInterface, addressFamily, color }

end Route

namespace Overlay

/-- Writes as data. -/
def toJson (o : Overlay) : Json :=
  .object [("writes", .object (o.toList.map fun w => (w.1.name, w.2.toJson)))]

/-- The writes of an object that is keyed by field names. -/
def writesOfJson? (v : Json) : Option (SortedMap RouteField AttributeValue) := do
  let entries ← v.entries? AttributeValue.ofJson?
  let writes ← entries.mapM fun e => (RouteField.ofName? e.1).map fun f => (f, e.2)
  return SortedMap.ofList writes

/-- Writes from data. -/
def ofJson? (v : Json) : Option Overlay := do
  let r ← Record.of? .json ["writes"] v
  let writes ← r.required 0 "writes" writesOfJson?
  return { writes }

end Overlay

end RoutePolicy
