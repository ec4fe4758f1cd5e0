/-!
# Routing protocols

The protocol that produced a route, its name, and which protocols a match on a protocol covers.
-/

set_option autoImplicit false

namespace RoutePolicy

/-- The protocol that produced a route; `bgp` is external and `ibgp` internal BGP. -/
inductive Protocol where
  | connected
  | local
  | static
  | aggregate
  | generated
  | ospf
  | isis
  | bgp
  | ibgp
  deriving DecidableEq, Repr

namespace Protocol

/-- All protocols. -/
def all : List Protocol :=
  [.connected, .local, .static, .aggregate, .generated, .ospf, .isis, .bgp, .ibgp]

/-- The name in configurations. -/
def name : Protocol → String
  | .connected => "connected"
  | .local => "local"
  | .static => "static"
  | .aggregate => "aggregate"
  | .generated => "generated"
  | .ospf => "ospf"
  | .isis => "isis"
  | .bgp => "bgp"
  | .ibgp => "ibgp"

/-- Whether a match on `p` accepts routes of `q`: a match on `bgp` covers internal BGP as well. -/
def covers (p q : Protocol) : Bool := p == q || (p == .bgp && q == .ibgp)

/-- The protocol of a name in lower case; `direct` and `ebgp` are second names. -/
def ofName? (name : String) : Option Protocol :=
  if name = "direct" then some .connected
  else if name = "ebgp" then some .bgp
  else all.find? (fun p => p.name == name)

/-- Reads a name in any letter case; a failure gives the name in lower case. -/
def parse (text : String) : Except String Protocol :=
  let name := String.ofList (text.toList.map Char.toLower)
  match ofName? name with
  | some p => .ok p
  | none => .error name

end Protocol

end RoutePolicy
