import RoutePolicy.Prefix.Basic
import RoutePolicy.Route.Attribute
import RoutePolicy.Route.Protocol

/-!
# Routes

A `Route` carries the attributes that policies test and write.

* `Route.get` reads a writable attribute;
* `Route.write` writes one, when the value has the shape of the field; otherwise it gives a
  `Misfit`.
-/

set_option autoImplicit false

namespace RoutePolicy

/-- A route offered to a policy. -/
structure Route where
  network : Prefix := .everything
  protocol : Protocol := .static
  nextHop : Address := .unspecified
  asPath : List UInt32 := []
  communities : CommunitySet := .empty
  localPreference : UInt32 := 100
  metric : UInt32 := 0
  metricType : MetricType := .type2
  tag : UInt32 := 0
  origin : OriginType := .igp
  sourceVrf : Option String := none
  sourceInterface : Option String := none
  addressFamily : AddressFamily := .ipv4Unicast
  color : Option UInt32 := none
  deriving DecidableEq

/-- A value that does not have the shape of the field it was meant for. -/
structure Misfit where
  field : RouteField
  value : AttributeValue
  deriving DecidableEq

/-- The wording of a misfit. -/
def Misfit.message (m : Misfit) : String :=
  "value " ++ m.value.describe ++ " cannot be written to field " ++ m.field.describe

namespace Route

/-- The current value of a writable attribute. -/
def get (r : Route) : RouteField → AttributeValue
  | .communities => .communities r.communities
  | .origin => .origin r.origin
  | .nextHop => .nextHop r.nextHop
  | .metricType => .metricType r.metricType
  | .localPreference => .number r.localPreference
  | .metric => .number r.metric
  | .tag => .number r.tag
  | .asPath => .asPath r.asPath

/-- The route with one attribute written. -/
def write (r : Route) (field : RouteField) (value : AttributeValue) : Except Misfit Route :=
  match field, value with
  | .communities, .communities c => .ok { r with communities := c }
  | .origin, .origin o => .ok { r with origin := o }
  | .nextHop, .nextHop a => .ok { r with nextHop := a }
  | .metricType, .metricType t => .ok { r with metricType := t }
  | .localPreference, .number n => .ok { r with localPreference := n }
  | .metric, .number n => .ok { r with metric := n }
  | .tag, .number n => .ok { r with tag := n }
  | .asPath, .asPath p => .ok { r with asPath := p }
  | field, value => .error ⟨field, value⟩

end Route

end RoutePolicy
