import RoutePolicy.Proofs.Configuration.Members
import RoutePolicy.Proofs.Derived.Programs

/-!
# Peers and aggregates decide by their chains

The policy of a peer runs its chain and leaves what the chain does not decide to the default policy
of the protocol.  The policy of an aggregate turns away what cannot contribute; for a contributor it
runs its chain, and what the chain does not decide is accepted unless a member has set another
default action.  Neither depends on the direction or on the default action of the evaluation.

* `Configuration.Converted.exists_run` — runs in the table of a configuration do not fail;
* `Configuration.Converted.run_peerChain`, `Configuration.Converted.run_generationPolicy` — the runs
  of the policies of peers and aggregates, in terms of their chains;
* `Configuration.evaluate_peerChain` — peers;
* `Configuration.evaluate_generationPolicy` — aggregates.
-/

set_option autoImplicit false

namespace RoutePolicy

/-- What comes after the top-level run of a chain. -/
theorem Table.ending_flow (t : Table) (visited : List PolicyId) (env : Environment)
    (stance : Stance) :
    t.ending visited env (stance.flow true) = match stance.exit? with
      | some action => .decides action
      | none => t.ending visited env .fallsThrough := by
  cases stance <;> rfl

namespace Configuration

variable {c : Configuration} {r : Registry} {t : Table}

/-- A top-level run of a policy of a configuration does not fail. -/
theorem Converted.exists_run (h : c.Converted r t) {policy : String} {id : PolicyId} {p : Policy}
    (hid : t.idOf? policy = some id) (hg : t.get? id = some p) (s : Settings) (route : Route)
    (d : Direction) : ∃ ran flow after,
      t.runPolicy s [id] p (Table.freshen s d p.name (Table.startOf route)) =
        ⟨ran, .ok (flow, after)⟩ := by
  obtain ⟨decision, hdecision⟩ := h.closed.exists_evaluate h.fits_table s policy route d
  rcases hrun : t.runPolicy s [id] p (Table.freshen s d p.name (Table.startOf route)) with
    ⟨ran, e | ⟨flow, after⟩⟩
  · unfold Table.evaluate at hdecision
    simp only [hid, hg, Table.runFrom_eq, hrun] at hdecision
    cases hdecision
  · exact ⟨ran, flow, after, rfl⟩

namespace Converted

variable {peer : Peer} {side : Direction} {members : List String}

/-- The policy of a peer makes the default policy of the protocol known and then runs its chain;
that default policy accepts what the protocol covers. -/
theorem run_peerChain (h : c.Converted r t) (hpeer : peer ∈ c.peers)
    (hside : (side, members) ∈ peer.chains)
    (hmembers : ∀ name ∈ members, isReservedName name = false) :
    ∃ id chain next closing,
      t.idOf? (Derived.peerChainName peer.name side) = some id ∧ t.get? id = some chain ∧
      t.get? next = some closing ∧ next ∉ [id] ∧
      (∀ s env, t.runPolicy s [id] chain env = (Stance.flow true <$> Account.stance <$>
        c.accountMembers t s.maxCallDepth (Derived.peerChainName peer.name side) members)
          { env with defaultPolicy := some next }) ∧
      ∀ s env, t.runPolicy s [next] closing env =
        ⟨[], .ok (.exits (.ofBool (peer.protocol.covers env.route.protocol)), env)⟩ := by
  obtain ⟨hclosing, hchain⟩ := h.mem_peer hpeer hside
  have hreserved : isReservedName (Derived.peerChainName peer.name side) = true :=
    isReservedName_derivedName _
  obtain ⟨id, chain, hplace, hid, hg, -, hrun⟩ := h.entry hchain
  obtain ⟨next, closing, hplaceNext, -, hgNext, -, hrunNext⟩ := h.entry hclosing
  have hfresh : next ∉ [id] :=
    place_notMem hclosing hchain hplaceNext hplace fun heq =>
      Statement.noConfusion (Option.some.inj heq)
  refine ⟨id, chain, next, closing, hid, hg, hgNext, hfresh, fun s env => ?_, fun s env => ?_⟩
  · have hcalls := congrFun (h.performAll_members hid hreserved hmembers s)
      { env with defaultPolicy := some next }
    exact (congrFun (hrun s [id]) env).trans
      ((Derived.performAll_peerChain hplaceNext env).trans hcalls)
  · exact (congrFun (hrunNext s [next]) env).trans
      (Derived.performAll_protocolDefault peer.protocol side env)

/-- The chain of a peer does not fail. -/
theorem exists_account (h : c.Converted r t) (hpeer : peer ∈ c.peers)
    (hside : (side, members) ∈ peer.chains)
    (hmembers : ∀ name ∈ members, isReservedName name = false) (maxCallDepth : Nat)
    (route : Route) :
    ∃ ran account after,
      c.accountMembers t maxCallDepth (Derived.peerChainName peer.name side) members
        (Table.startOf route) = ⟨ran, .ok (account, after)⟩ := by
  obtain ⟨id, chain, next, -, hid, hg, -, -, hrun, -⟩ := h.run_peerChain hpeer hside hmembers
  obtain ⟨ran, flow, mid, hmid⟩ := h.exists_run hid hg { maxCallDepth } route .inbound
  rw [hrun] at hmid
  obtain ⟨account, haccount, -⟩ := Account.exists_of_flow_apply hmid
  have halike : ({ Table.freshen { maxCallDepth } .inbound chain.name (Table.startOf route) with
      defaultPolicy := some next } : Environment).Alike (Table.startOf route) := ⟨rfl, rfl⟩
  obtain ⟨account', after, hafter, -⟩ :=
    h.parallel_members hid (isReservedName_derivedName _) hmembers halike haccount
  exact ⟨ran, account', after, hafter⟩

end Converted

/-- **A peer decides by its chain, and by the default of its protocol.**  On every route, the policy
of a peer runs the members of the chain in order as calls, up to the first one that exits.  If one
does, its action is the result; if none does, the result is to accept exactly the routes that the
protocol of the peer covers.  All writes of the members are kept.  This is so whatever the direction
and the default action of the evaluation are, and whatever default actions the members set. -/
theorem evaluate_peerChain {notices : List Notice} (hconvert : c.convert = (notices, .ok t))
    {peer : Peer} (hpeer : peer ∈ c.peers) {side : Direction} {members : List String}
    (hside : (side, members) ∈ peer.chains)
    (hmembers : ∀ name ∈ members, isReservedName name = false) (maxCallDepth : Nat)
    (route : Route) :
    ∃ ran account after,
      c.accountMembers t maxCallDepth (Derived.peerChainName peer.name side) members
          (Table.startOf route) = ⟨ran, .ok (account, after)⟩ ∧
      ∀ (defaultAction : Option Action) (d : Direction),
        let evaluation := t.evaluate { defaultAction, maxCallDepth }
          (Derived.peerChainName peer.name side) route d
        evaluation.2 = .ok
            { result := account.stance.exit?.getD (.ofBool (peer.protocol.covers route.protocol))
              attributes := after.overlay } ∧
          diagnosticsOf evaluation.1 = diagnosticsOf ran := by
  obtain ⟨r, hconverted⟩ := exists_converted hconvert
  obtain ⟨ran, account, after, hstart⟩ :=
    hconverted.exists_account hpeer hside hmembers maxCallDepth route
  refine ⟨ran, account, after, hstart, fun defaultAction d => ?_⟩
  obtain ⟨id, chain, next, closing, hid, hg, hgNext, hfresh, hrunChain, hrunClosing⟩ :=
    hconverted.run_peerChain hpeer hside hmembers
  let s : Settings := { defaultAction, maxCallDepth }
  let start : Environment :=
    { Table.freshen s d chain.name (Table.startOf route) with defaultPolicy := some next }
  have hstartAlike : (Table.startOf route).Alike start := ⟨rfl, rfl⟩
  obtain ⟨account', after', haccount', hexit, halike, hprotocol⟩ :=
    hconverted.parallel_members hid (isReservedName_derivedName _) hmembers hstartAlike hstart
  have hrun : t.runPolicy s [id] chain (Table.freshen s d chain.name (Table.startOf route)) =
      ⟨ran, .ok (account'.stance.flow true, after')⟩ :=
    (hrunChain s _).trans (Account.flow_apply haccount')
  have hending := t.ending_flow [id] after' account'.stance
  rw [hexit] at hending
  cases haction : account.stance.exit? with
  | some action =>
    -- a member exits
    rw [haction] at hending
    obtain ⟨hresult, hdiagnostics⟩ := Table.evaluate_decides hid hg hrun hending
    rw [← halike.overlay_eq] at hresult
    exact ⟨hresult, hdiagnostics⟩
  | none =>
    -- the default policy of the protocol is still in place
    have hdefault : after'.defaultPolicy = some next :=
      (c.tallies_accountMembers t maxCallDepth _ members start account' after'
        (congrArg Outcome.result haccount')).2
    have hfalls : t.ending [id] after' (account'.stance.flow true) = .fallsTo next closing := by
      rw [hending, haction]
      simp only [Table.ending, hdefault, if_neg hfresh, hgNext]
    obtain ⟨hresult, hdiagnostics⟩ :=
      Table.evaluate_fallsTo hid hg hrun hfalls (hrunClosing s _)
    have hcovered : (Table.freshen s d closing.name after').route.protocol = route.protocol :=
      (congrArg Route.protocol halike.route_eq.symm).trans hprotocol
    rw [hcovered] at hresult
    refine ⟨hresult.trans ?_, hdiagnostics.trans (List.append_nil _)⟩
    rw [halike.overlay_eq]
    rfl

/-- A peer whose chain names an undefined policy between two policy statements; the first asks the
second, which asks the first and a derived policy, and both set default actions. -/
theorem evaluate_peerChain_members :
    let c : Configuration :=
      { policyStatements := [
          { name := "a"
            terms := [{ clauses := [.policy ["b"]]
                        actions := [.defaultReject, .metricAdd 5, .nextPolicy] }] },
          { name := "b"
            terms := [{ clauses := [.policyChain ["a", Derived.peerChainName "n" .outbound]]
                        actions := [.reject] },
              { actions := [.tag 7, .defaultAccept] }] }]
        peers := [{ name := "n", inbound := ["a", "missing", "b"] }] }
    let members := ["a", "missing", "b"]
    ∃ notices t, c.convert = (notices, .ok t) ∧
      { name := "n", inbound := members } ∈ c.peers ∧
      (Direction.inbound, members) ∈ Peer.chains { name := "n", inbound := members } ∧
      (∀ name ∈ members, isReservedName name = false) ∧
      ∃ ran account after,
        c.accountMembers t 64 (Derived.peerChainName "n" .inbound) members
            (Table.startOf { protocol := .bgp }) = ⟨ran, .ok (account, after)⟩ ∧
        ∀ (defaultAction : Option Action) (d : Direction),
          let evaluation := t.evaluate { defaultAction, maxCallDepth := 64 }
            (Derived.peerChainName "n" .inbound) { protocol := .bgp } d
          evaluation.2 = .ok ⟨account.stance.exit?.getD .accept, after.overlay⟩ ∧
            diagnosticsOf evaluation.1 = diagnosticsOf ran := by
  intro c members
  have hmembers : ∀ name ∈ members, isReservedName name = false := by decide
  rcases hconvert : c.convert with ⟨notices, e | t⟩
  · have hok : c.convert.2.toBool = true := by decide
    rw [hconvert] at hok
    cases hok
  · exact ⟨notices, t, rfl, List.mem_cons_self, List.mem_cons_self, hmembers,
      evaluate_peerChain hconvert List.mem_cons_self List.mem_cons_self hmembers 64
        { protocol := .bgp }⟩

/-! ## Aggregates -/

/-- The policy of an aggregate turns away what cannot contribute, and runs its chain for the rest
with acceptance as the default action. -/
theorem Converted.run_generationPolicy (h : c.Converted r t) {aggregate : Aggregate}
    (haggregate : aggregate ∈ c.aggregates) :
    ∃ id p, t.idOf? (Derived.generationPolicyName aggregate.base) = some id ∧ t.get? id = some p ∧
      (∀ s env, env.route.network.isMoreSpecificOf aggregate.base = false →
        t.runPolicy s [id] p env = ⟨[], .ok (.exits .reject, env)⟩) ∧
      ((∀ name ∈ aggregate.policies, isReservedName name = false) →
        ∀ s env, env.route.network.isMoreSpecificOf aggregate.base = true →
          t.runPolicy s [id] p env = (Stance.flow true <$> Account.stance <$>
            c.accountMembers t s.maxCallDepth (Derived.generationPolicyName aggregate.base)
              aggregate.policies) { env with defaultAction := .accept }) := by
  obtain ⟨id, p, -, hid, hg, -, hrun⟩ := h.entry (h.mem_aggregate haggregate)
  refine ⟨id, p, hid, hg, fun s env houtside => ?_, fun hmembers s env hinside => ?_⟩
  · have hprogram := (congrFun (hrun s [id]) env).trans
      (Derived.performAll_generationPolicy aggregate.base aggregate.policies env)
    rw [houtside, if_neg Bool.false_ne_true] at hprogram
    exact hprogram
  · have hprogram := (congrFun (hrun s [id]) env).trans
      (Derived.performAll_generationPolicy aggregate.base aggregate.policies env)
    rw [hinside, if_pos rfl] at hprogram
    exact hprogram.trans (congrFun
      (h.performAll_members hid (isReservedName_derivedName _) hmembers s) _)

/-- **An aggregate decides by its chain, and accepts by default.**  The policy of an aggregate
rejects every route whose prefix is not strictly more specific than that of the aggregate, without a
write and without a diagnostic, whatever its members are.  For every other route it runs the members
in order as calls, up to the first one that exits.  If one does, its action is the result; if none
does, the result is the last default action that a clause of a member has set, not counting what the
policies do that members ask, and to accept when there is none.  This is so whatever the direction
and the default action of the evaluation are. -/
theorem evaluate_generationPolicy {notices : List Notice} (hconvert : c.convert = (notices, .ok t))
    {aggregate : Aggregate} (haggregate : aggregate ∈ c.aggregates) (maxCallDepth : Nat)
    (route : Route) :
    (route.network.isMoreSpecificOf aggregate.base = false →
      ∀ (defaultAction : Option Action) (d : Direction),
        let evaluation := t.evaluate { defaultAction, maxCallDepth }
          (Derived.generationPolicyName aggregate.base) route d
        evaluation.2 = .ok { result := .reject, attributes := .empty } ∧
          diagnosticsOf evaluation.1 = []) ∧
    (route.network.isMoreSpecificOf aggregate.base = true →
      (∀ name ∈ aggregate.policies, isReservedName name = false) →
      ∃ ran account after,
        c.accountMembers t maxCallDepth (Derived.generationPolicyName aggregate.base)
            aggregate.policies { Table.startOf route with defaultAction := .accept } =
          ⟨ran, .ok (account, after)⟩ ∧
        ∀ (defaultAction : Option Action) (d : Direction),
          let evaluation := t.evaluate { defaultAction, maxCallDepth }
            (Derived.generationPolicyName aggregate.base) route d
          evaluation.2 = .ok
              { result := account.stance.exit?.getD (account.defaults.getLastD .accept)
                attributes := after.overlay } ∧
            diagnosticsOf evaluation.1 = diagnosticsOf ran) := by
  obtain ⟨r, hconverted⟩ := exists_converted hconvert
  obtain ⟨id, p, hid, hg, hturnedAway, hcontributes⟩ :=
    hconverted.run_generationPolicy haggregate
  refine ⟨fun houtside defaultAction d => ?_, fun hinside hmembers => ?_⟩
  · exact Table.evaluate_decides hid hg (hturnedAway _ _ houtside) rfl
  · let start : Environment := { Table.startOf route with defaultAction := .accept }
    have hrun : ∀ s d, t.runPolicy s [id] p (Table.freshen s d p.name (Table.startOf route)) =
        (Stance.flow true <$> Account.stance <$> c.accountMembers t s.maxCallDepth
          (Derived.generationPolicyName aggregate.base) aggregate.policies) start :=
      fun s d => hcontributes hmembers s _ hinside
    obtain ⟨ran, flow, after, hran⟩ := hconverted.exists_run hid hg { maxCallDepth } route .inbound
    rw [hrun] at hran
    obtain ⟨account, haccount, -⟩ := Account.exists_of_flow_apply hran
    refine ⟨ran, account, after, haccount, fun defaultAction d => ?_⟩
    let s : Settings := { defaultAction, maxCallDepth }
    have hprogram : t.runPolicy s [id] p (Table.freshen s d p.name (Table.startOf route)) =
        ⟨ran, .ok (account.stance.flow true, after)⟩ :=
      (hrun s d).trans (Account.flow_apply haccount)
    obtain ⟨haction, hpolicy⟩ := c.tallies_accountMembers t maxCallDepth _ aggregate.policies start
      account after (congrArg Outcome.result haccount)
    have hending : t.ending [id] after (account.stance.flow true) =
        .decides (account.stance.exit?.getD (account.defaults.getLastD .accept)) := by
      rw [t.ending_flow]
      cases account.stance.exit? with
      | some action => rfl
      | none =>
        have hnone : after.defaultPolicy = none := hpolicy
        simp only [Table.ending, hnone, haction, Option.getD_none]
        rfl
    exact Table.evaluate_decides hid hg hprogram hending

/-- An aggregate of `10.0.0.0/8` whose only policy asks itself and sets a default action: the route
of the aggregate itself is turned away, and a route inside it contributes. -/
theorem evaluate_generationPolicy_contributor :
    let base : Prefix := .around ⟨0x0a000000⟩ 8 (by decide)
    let inside : Prefix := .around ⟨0x0a010000⟩ 16 (by decide)
    let c : Configuration :=
      { policyStatements := [
          { name := "a"
            terms := [{ clauses := [.policyChain ["a"]], actions := [.accept] },
              { actions := [.defaultReject, .tag 7] }] }]
        aggregates := [{ base, policies := ["missing", "a"] }] }
    ∃ notices t, c.convert = (notices, .ok t) ∧
      { base, policies := ["missing", "a"] } ∈ c.aggregates ∧
      base.isMoreSpecificOf base = false ∧ inside.isMoreSpecificOf base = true ∧
      (∀ name ∈ ["missing", "a"], isReservedName name = false) ∧
      (∀ (defaultAction : Option Action) (d : Direction),
        (t.evaluate { defaultAction, maxCallDepth := 64 } (Derived.generationPolicyName base)
          { network := base } d).2 = .ok ⟨.reject, .empty⟩) ∧
      ∃ ran account after,
        c.accountMembers t 64 (Derived.generationPolicyName base) ["missing", "a"]
            { Table.startOf { network := inside } with defaultAction := .accept } =
          ⟨ran, .ok (account, after)⟩ ∧
        ∀ (defaultAction : Option Action) (d : Direction),
          (t.evaluate { defaultAction, maxCallDepth := 64 } (Derived.generationPolicyName base)
            { network := inside } d).2 =
              .ok ⟨account.stance.exit?.getD (account.defaults.getLastD .accept),
                after.overlay⟩ := by
  intro base inside c
  have houtside : base.isMoreSpecificOf base = false := by decide
  have hinside : inside.isMoreSpecificOf base = true := by decide
  have hmembers : ∀ name ∈ ["missing", "a"], isReservedName name = false := by decide
  rcases hconvert : c.convert with ⟨notices, e | t⟩
  · have hok : c.convert.2.toBool = true := by decide
    rw [hconvert] at hok
    cases hok
  · have haggregate : { base, policies := ["missing", "a"] } ∈ c.aggregates := List.mem_cons_self
    have hrejects :=
      (evaluate_generationPolicy hconvert haggregate 64 { network := base }).1 houtside
    obtain ⟨ran, account, after, hrun, hdecides⟩ :=
      (evaluate_generationPolicy hconvert haggregate 64 { network := inside }).2 hinside hmembers
    exact ⟨notices, t, rfl, haggregate, houtside, hinside, hmembers,
      fun defaultAction d => (hrejects defaultAction d).1, ran, account, after, hrun,
      fun defaultAction d => (hdecides defaultAction d).1⟩

end Configuration

end RoutePolicy
