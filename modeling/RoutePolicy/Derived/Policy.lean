import RoutePolicy.Derived.Name
import RoutePolicy.Policy.Basic

/-!
# Derived policies

Policies that no user wrote, which connect the policies of users with peers, aggregates, RIB
groups and instances.
-/

set_option autoImplicit false

namespace RoutePolicy

namespace Derived

/-- Rejects every route. -/
def defaultReject : Policy := .derived defaultRejectName [.control .exitReject]

/-- Accepts every route. -/
def defaultAccept : Policy := .derived defaultAcceptName [.control .exitAccept]

/-- Accepts the routes of a protocol and rejects all others. -/
def protocolDefault (p : Protocol) (d : Direction) : Policy :=
  .derived (protocolDefaultName p d)
    [.branch (.test (.protocol p)) [.control .exitAccept] [.control .exitReject]]

/-- Calls policies in order until one of them accepts or rejects; a default policy decides what
they leave open. -/
def policyChain (name defaultPolicy : String) (policies : List String) : Policy :=
  .derived name
    (.setDefaultPolicy (.named defaultPolicy) :: policies.map fun p => .call (.named p))

/-- The chain of a peer. -/
def peerChain (peer : String) (d : Direction) (defaultPolicy : String) (policies : List String) :
    Policy :=
  policyChain (peerChainName peer d) defaultPolicy policies

/-- Rejects what cannot contribute to an aggregate, and accepts a contributor unless one of the
policies rejects it. -/
def generationPolicy (aggregate : Prefix) (policies : List String) : Policy :=
  .derived (generationPolicyName aggregate)
    (.branch (.test (.contributesTo aggregate)) [] [.control .exitReject]
      :: .control .defaultAccept :: policies.map fun p => .call (.named p))

/-- Asks policies and at last the default policy of a protocol, and does as the first one that
decides. -/
def ribGroupPolicy (group : String) (p : Protocol) (policies : List String) : Policy :=
  let closing := protocolDefaultName p .inbound
  .derived (ribGroupPolicyName group)
    [.setDefaultPolicy (.named closing),
      .branch (.firstMatch (policies.map Reference.named ++ [.named closing]))
        [.control .exitAccept]
        [.control .exitReject]]

/-- Asks policies and returns the verdict of the first one that decides, or false. -/
def instanceImportPolicy (vrf : String) (policies : List String) : Policy :=
  .derived (instanceImportPolicyName vrf)
    [.setDefaultPolicy (.named defaultRejectName),
      .branch (.firstMatch (policies.map Reference.named)) [.control .returnTrue]
        [.control .returnFalse]]

/-- Accepts what the import policy of an instance lets in. -/
def instanceImportGate (vrf : String) : Policy :=
  .derived (instanceImportGateName vrf)
    [.branch (.callPolicy (.named (instanceImportPolicyName vrf))) [.control .exitAccept]
      [.control .exitReject]]

end Derived

end RoutePolicy
