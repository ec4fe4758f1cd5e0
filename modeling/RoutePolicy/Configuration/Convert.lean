import RoutePolicy.Configuration.Compile
import RoutePolicy.Derived.Policy
import RoutePolicy.Table

/-!
# From a configuration to a table

`Configuration.convert` defines the policies that a configuration stands for, simplifies them when
it says so, and freezes the registry.  It fails only when two of the policies want one name or a
policy statement has a reserved one; the notices before the failure are kept.
-/

set_option autoImplicit false

namespace RoutePolicy

/-- A policy to be defined, with what is reported while it is made. -/
structure Definition where
  notices : List Notice := []
  policy : Policy

namespace Registry

/-- Defines policies in order, up to the first one that cannot be stored. -/
def defineAll (r : Registry) : List Definition → List Notice × Except DefineError Registry
  | [] => ([], .ok r)
  | d :: ds =>
    match r.define d.policy with
    | .error e => (d.notices, .error e)
    | .ok (notices, r') =>
      let (rest, result) := r'.defineAll ds
      (d.notices ++ notices ++ rest, result)

end Registry

namespace Peer

/-- The policies of a peer: for each direction the default of its protocol and its chain. -/
def definitions (p : Peer) : List Definition :=
  [(Direction.inbound, p.inbound), (.outbound, p.outbound)].flatMap fun (d, policies) =>
    [{ policy := Derived.protocolDefault p.protocol d },
      { policy := Derived.peerChain p.name d (Derived.protocolDefaultName p.protocol d) policies }]

end Peer

namespace Configuration

/-- The policies of a configuration, in the order in which they are defined. -/
def definitions (c : Configuration) : List Definition :=
  [{ policy := Derived.defaultReject }, { policy := Derived.defaultAccept }]
    ++ c.policyStatements.map (fun s =>
      { notices := s.notices c.prefixLists, policy := s.compile c.prefixLists })
    ++ c.peers.flatMap Peer.definitions
    ++ c.aggregates.map (fun a => { policy := Derived.generationPolicy a.base a.policies })
    ++ c.ribGroups.flatMap (fun g =>
      [{ policy := Derived.protocolDefault g.protocol .inbound },
        { policy := Derived.ribGroupPolicy g.name g.protocol g.inbound }])
    ++ c.instanceImports.flatMap (fun i =>
      [{ policy := Derived.instanceImportPolicy i.vrf i.policies },
        { policy := Derived.instanceImportGate i.vrf }])

/-- The table of a configuration. -/
def convert (c : Configuration) : List Notice × Except DefineError Table :=
  match Registry.empty.defineAll c.definitions with
  | (notices, .error e) => (notices, .error e)
  | (notices, .ok r) =>
    let r := if c.simplify then r.simplifyAll else r
    let converted : Notice :=
      .event (.configurationConverted r.size c.policyStatements.length c.simplify)
    let (linked, table) := r.freeze
    (notices ++ converted :: linked, .ok table)

end Configuration

end RoutePolicy
