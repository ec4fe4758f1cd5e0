import RoutePolicy.Evaluation.Decision
import RoutePolicy.Policy.Name
import RoutePolicy.Prefix.Text

/-!
# Names of derived policies

Each builder of derived policies has a name of its own, made of a tag and what it was built for.
-/

set_option autoImplicit false

namespace RoutePolicy

namespace Derived

/-- The policy that rejects everything. -/
def defaultRejectName : String := derivedName ["DEFAULT_REJECT"]

/-- The policy that accepts everything. -/
def defaultAcceptName : String := derivedName ["DEFAULT_ACCEPT"]

/-- A direction in capital letters. -/
def directionTag : Direction → String
  | .inbound => "IMPORT"
  | .outbound => "EXPORT"
  | .generation => "GENERATION"

/-- A text with its ASCII letters in upper case. -/
def upperCase (s : String) : String := String.ofList (s.toList.map Char.toUpper)

/-- The default policy of a protocol. -/
def protocolDefaultName (p : Protocol) (d : Direction) : String :=
  derivedName [upperCase p.name ++ "_DEFAULT_" ++ directionTag d]

/-- The policy of a peer. -/
def peerChainName (peer : String) (d : Direction) : String :=
  derivedName ["PEER_" ++ directionTag d, peer]

/-- The policy for the contributors of an aggregate. -/
def generationPolicyName (aggregate : Prefix) : String :=
  derivedName ["GENERATED_ROUTE_POLICY", aggregate.text]

/-- The policy of a RIB group. -/
def ribGroupPolicyName (group : String) : String := derivedName ["RIB_GROUP_IMPORT", group]

/-- The policy for the import into an instance. -/
def instanceImportPolicyName (vrf : String) : String := derivedName ["INSTANCE_IMPORT", vrf]

/-- The entry point of the import into an instance. -/
def instanceImportGateName (vrf : String) : String := derivedName ["INSTANCE_IMPORT_GATE", vrf]

end Derived

end RoutePolicy
