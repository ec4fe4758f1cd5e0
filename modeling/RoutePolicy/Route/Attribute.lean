import RoutePolicy.Address
import RoutePolicy.Community

/-!
# Route attributes that a policy can write

`RouteField` names the attributes and `AttributeValue` holds a value for one of them.  Three
fields share the numeric values; every other field has values of its own shape.
-/

set_option autoImplicit false

namespace RoutePolicy

/-- How a route entered BGP. -/
inductive OriginType where
  | igp
  | egp
  | incomplete
  deriving DecidableEq, Repr

/-- How an external metric compares with internal ones. -/
inductive MetricType where
  | type1
  | type2
  deriving DecidableEq, Repr

/-- The family of addresses a route belongs to. -/
inductive AddressFamily where
  | ipv4Unicast
  | ipv6Unicast
  deriving DecidableEq, Repr

/-- The attributes that a policy can write. -/
inductive RouteField where
  | communities
  | origin
  | nextHop
  | metricType
  | localPreference
  | metric
  | tag
  | asPath
  deriving DecidableEq, Repr

/-- A value for an attribute. -/
inductive AttributeValue where
  | communities (value : CommunitySet)
  | origin (value : OriginType)
  | nextHop (value : Address)
  | metricType (value : MetricType)
  | number (value : UInt32)
  | asPath (value : List UInt32)
  deriving DecidableEq

namespace RouteField

/-- All fields, in the order in which writes are listed. -/
def all : List RouteField :=
  [.communities, .origin, .nextHop, .metricType, .localPreference, .metric, .tag, .asPath]

/-- The place of a field in that order. -/
def index : RouteField → Nat
  | .communities => 0
  | .origin => 1
  | .nextHop => 2
  | .metricType => 3
  | .localPreference => 4
  | .metric => 5
  | .tag => 6
  | .asPath => 7

instance : LT RouteField := ⟨fun a b => a.index < b.index⟩

instance : DecidableLT RouteField :=
  fun a b => inferInstanceAs (Decidable (a.index < b.index))

theorem index_injective {a b : RouteField} (h : a.index = b.index) : a = b := by
  cases a <;> cases b <;> first | rfl | exact absurd h (by decide)

instance : KeyOrder RouteField where
  irrefl a := Nat.lt_irrefl a.index
  trans := Nat.lt_trans
  connected h h' := index_injective (Nat.le_antisymm (Nat.not_lt.mp h') (Nat.not_lt.mp h))

/-- The name of a field in messages. -/
def describe : RouteField → String
  | .communities => "Communities"
  | .origin => "Origin"
  | .nextHop => "NextHop"
  | .metricType => "MetricType"
  | .localPreference => "LocalPreference"
  | .metric => "Metric"
  | .tag => "Tag"
  | .asPath => "AsPath"

end RouteField

/-- The name of an origin in messages. -/
def OriginType.describe : OriginType → String
  | .igp => "Igp"
  | .egp => "Egp"
  | .incomplete => "Incomplete"

/-- The name of a metric type in messages. -/
def MetricType.describe : MetricType → String
  | .type1 => "Type1"
  | .type2 => "Type2"

/-- A list of numbers in messages. -/
def describeNumbers (ns : List UInt32) : String :=
  "[" ++ ", ".intercalate (ns.map fun n => Decimal.text n.toNat) ++ "]"

/-- A set of communities in messages: each by its number, in a pair of braces. -/
def describeCommunities (s : CommunitySet) : String :=
  let texts := s.toList.map fun c => "Community(" ++ Decimal.text c.number.toNat ++ ")"
  "\x7b" ++ ", ".intercalate texts ++ "\x7d"

/-- A value in messages. -/
def AttributeValue.describe : AttributeValue → String
  | .communities s => "Communities(" ++ describeCommunities s ++ ")"
  | .origin o => "Origin(" ++ o.describe ++ ")"
  | .nextHop a => "NextHop(" ++ a.text ++ ")"
  | .metricType t => "MetricType(" ++ t.describe ++ ")"
  | .number n => "Number(" ++ Decimal.text n.toNat ++ ")"
  | .asPath path => "AsPath(" ++ describeNumbers path ++ ")"

end RoutePolicy
