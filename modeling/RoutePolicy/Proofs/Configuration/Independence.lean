import RoutePolicy.Proofs.Configuration.Entries
import RoutePolicy.Proofs.Configuration.UserPolicies
import RoutePolicy.Proofs.Derived.Programs

/-!
# Policies of users behind peers, RIB groups and instances

A policy of a user is run by three mechanisms: on top level, by a call in the chain of a peer, and
inside the conditions of RIB groups and instances, one or two calls deep.  It does the same to a
route in all of them, and only what becomes of a route that it leaves open differs.

* `Table.Treats.gives_visit`, `Table.Treats.gives_askNamed` — calls of such a policy;
* `Configuration.Converted.evaluate_peer`, `Configuration.Converted.evaluate_ribGroup` and
  `Configuration.Converted.evaluate_instanceImport` — the three mechanisms;
* `Configuration.evaluate_userPolicy` — all of them against the top-level run.
-/

set_option autoImplicit false

namespace RoutePolicy

open Evaluation (Gives)

/-- The action after a policy, when another one is taken on what the policy leaves open. -/
def Flow.actionOr (open_ : Action) : Flow → Action
  | .exits action => action
  | .fallsThrough | .returns _ => open_

/-- A policy statement leaves exactly those routes open that it gives no definite verdict on. -/
theorem Stance.actionOr_flow (inCall : Bool) (stance : Stance) (open_ : Action) :
    (stance.flow inCall).actionOr open_ = match stance.verdict with
      | .matched b => .ofBool b
      | .unmatched => open_ := by
  cases stance with
  | exits action => cases action <;> rfl
  | nextPolicy => rfl
  | undecided => cases inCall <;> rfl

theorem Stance.isTrue_verdict (inCall : Bool) (stance : Stance) :
    stance.verdict.isTrue = (stance.flow inCall == .exits .accept) := by
  cases stance with
  | exits action => cases action <;> rfl
  | nextPolicy => rfl
  | undecided => cases inCall <;> rfl

namespace Table

variable {t : Table} {s : Settings} {id : PolicyId} {p : Policy}

theorem evaluate_of_runFrom {policy : String} {route : Route} {d : Direction} {action : Action}
    {env : Environment} (hid : t.idOf? policy = some id) (hg : t.get? id = some p)
    (hrun : (t.runFrom s d [id] id p (startOf route)).2 = .ok ⟨action, env⟩) :
    (t.evaluate s policy route d).2 = .ok ⟨action, env.overlay⟩ := by
  rw [evaluate, hid]
  simp only [hg, hrun]
  rfl

theorem reserved_singleton (hg : t.get? id = some p) (hname : isReservedName p.name = true) :
    t.Reserved [id] :=
  Reserved.nil.append hg hname

namespace Treats

variable {before after : Route} {stance : Stance} {writes : Overlay} {callers : List PolicyId}

/-- Derived policies can always call a policy of a user. -/
theorem gives_visit (h : t.Treats s id p before stance after writes)
    (hdepth : t.size ≤ s.maxCallDepth) (hplaces : t.Places callers)
    (hreserved : t.Reserved callers) (env : Environment) (hroute : env.route = before)
    (hoverlay : env.overlay = .empty) (policy : String) (ref : Reference)
    (hlink : ref.link = some id) :
    ∃ env', ((t.context s callers policy).visit ref).Gives env
        (.ran p.name (stance.flow (0 < callers.length))) env' ∧
      env'.route = after ∧ env'.overlay = writes ∧ env'.defaultPolicy = env.defaultPolicy := by
  have hdeeper := hplaces.append (hreserved.notMem h.get_eq h.user) h.get_eq
  obtain ⟨env', hrun, hafter⟩ := h.run callers hplaces hreserved env hroute hoverlay
  exact ⟨env', hdeeper.gives_visit hdepth policy ref hlink h.get_eq hrun, hafter⟩

/-- The verdict of a policy of a user inside of a condition is that of its stance. -/
theorem gives_askNamed (h : t.Treats s id p before stance after writes)
    (hdepth : t.size ≤ s.maxCallDepth) (hplaces : t.Places callers)
    (hreserved : t.Reserved callers) (env : Environment) (hroute : env.route = before)
    (hoverlay : env.overlay = .empty) {names : List String} {name : String}
    (hplace : placeOf names name = some id) (policy : String) :
    ∃ env', ((t.context s callers policy).askNamed names name).Gives env stance.verdict env' ∧
      env'.route = after ∧ env'.overlay = writes := by
  obtain ⟨env', hvisit, hroute', hoverlay', -⟩ :=
    h.gives_visit hdepth hplaces hreserved env hroute hoverlay policy (.placed names name) hplace
  have hasked := Context.gives_ask hvisit
  rw [Stance.verdict_flow] at hasked
  exact ⟨_, hasked, hroute', hoverlay'⟩

end Treats

end Table

namespace Configuration

variable {c : Configuration}

namespace Converted

variable {r : Registry} {t : Table} {s : Settings}

/-! ## The three mechanisms -/

variable {id : PolicyId} {p : Policy} {route after : Route} {stance : Stance} {writes : Overlay}

/-- A peer whose chain is one policy of a user does as the policy decides, and as the default policy
of the protocol on what it leaves open. -/
theorem evaluate_peer (h : c.Converted r t) (hdepth : t.size ≤ s.maxCallDepth)
    (htreats : t.Treats s id p route stance after writes) {name : String}
    (hplace : placeOf r.names name = some id) {peer : Peer} (hpeer : peer ∈ c.peers)
    (hinbound : peer.inbound = [name]) (d : Direction) :
    (t.evaluate s (Derived.peerChainName peer.name .inbound) route d).2 =
      .ok ⟨(stance.flow false).actionOr (.ofBool (peer.protocol.covers route.protocol)),
        writes⟩ := by
  obtain ⟨hclosing, hchain⟩ := h.mem_peer hpeer List.mem_cons_self
  rw [hinbound] at hchain
  obtain ⟨idChain, chain, hplaceChain, hidChain, hgChain, hreserved, hrunChain⟩ :=
    h.entry_derived hchain (isReservedName_derivedName _)
  obtain ⟨idClosing, closing, hplaceClosing, -, hgClosing, -, hrunClosing⟩ := h.entry hclosing
  have hne : idClosing ∉ [idChain] :=
    place_notMem hclosing hchain hplaceClosing hplaceChain fun heq =>
      Statement.noConfusion (Option.some.inj heq)
  let start : Environment := Table.freshen s d chain.name (Table.startOf route)
  obtain ⟨env, hvisit, hroute, hoverlay, hdefault⟩ :=
    htreats.gives_visit hdepth (.singleton hgChain) (Table.reserved_singleton hgChain hreserved)
      { start with defaultPolicy := some idClosing } rfl rfl
      (Derived.peerChainName peer.name .inbound) ((Reference.named name).linkOrKeep r.names)
      (((Reference.named name).link_linkOrKeep r.names rfl).trans hplace)
  have hid : t.idOf? (Derived.peerChainName peer.name .inbound) = some idChain := hidChain
  by_cases hexits : ∃ action, stance = .exits action
  · obtain ⟨action, rfl⟩ := hexits
    have hprogram : (t.runPolicy s [idChain] chain).Gives start (.exits action) env := by
      rw [hrunChain]
      exact Derived.gives_peerChain hplaceClosing (Context.gives_call_exits hvisit)
    rw [Table.evaluate_of_runFrom hid hgChain (Table.runFrom_of_exits _ hprogram), hoverlay]
    rfl
  · have hopen : ∀ inCall action, stance.flow inCall ≠ .exits action := by
      intro inCall action heq
      exact hexits ⟨action, (stance.flow_eq_exits_iff inCall action).mp heq⟩
    have hprogram : (t.runPolicy s [idChain] chain).Gives start .fallsThrough env := by
      rw [hrunChain]
      exact Derived.gives_peerChain hplaceClosing (Context.gives_call_fallsThrough hvisit (hopen _))
    have hclosed : (t.runPolicy s [idClosing] closing).Gives (Table.freshen s d closing.name env)
        (.exits (.ofBool (peer.protocol.covers env.route.protocol)))
        (Table.freshen s d closing.name env) := by
      rw [hrunClosing]
      exact Derived.gives_protocolDefault _ _
    have hresult := Table.runFrom_of_default [idChain] hprogram hdefault hne hgClosing hclosed
    have hwrites : (Table.freshen s d closing.name env).overlay = writes := hoverlay
    have haction : (stance.flow false).actionOr (.ofBool (peer.protocol.covers route.protocol)) =
        .ofBool (peer.protocol.covers env.route.protocol) := by
      rw [hroute, htreats.protocol_eq]
      cases hflow : stance.flow false with
      | exits action => exact absurd hflow (hopen false action)
      | fallsThrough => rfl
      | returns verdict => rfl
    rw [Table.evaluate_of_runFrom hid hgChain hresult, hwrites, haction]

/-- A RIB group with one policy of a user does as the policy decides, and as the default policy of
the protocol on what it leaves open. -/
theorem evaluate_ribGroup (h : c.Converted r t) (hdepth : t.size ≤ s.maxCallDepth)
    (htreats : t.Treats s id p route stance after writes) {name : String}
    (hplace : placeOf r.names name = some id) {group : RibGroup} (hgroup : group ∈ c.ribGroups)
    (hinbound : group.inbound = [name]) (d : Direction) :
    (t.evaluate s (Derived.ribGroupPolicyName group.name) route d).2 =
      .ok ⟨(stance.flow false).actionOr (.ofBool (group.protocol.covers route.protocol)),
        writes⟩ := by
  obtain ⟨hclosing, hrib⟩ := h.mem_ribGroup hgroup
  rw [hinbound] at hrib
  obtain ⟨idRib, rib, hplaceRib, hidRib, hgRib, hreserved, hrunRib⟩ :=
    h.entry_derived hrib (isReservedName_derivedName _)
  obtain ⟨idClosing, closing, hplaceClosing, -, hgClosing, -, hrunClosing⟩ := h.entry hclosing
  have hne : idClosing ∉ [idRib] :=
    place_notMem hclosing hrib hplaceClosing hplaceRib fun heq =>
      Statement.noConfusion (Option.some.inj heq)
  let start : Environment := Table.freshen s d rib.name (Table.startOf route)
  let ask : String → Evaluation Verdict :=
    (t.context s [idRib] (Derived.ribGroupPolicyName group.name)).askNamed r.names
  obtain ⟨env, hasked, hroute, hoverlay⟩ :=
    htreats.gives_askNamed hdepth (.singleton hgRib) (Table.reserved_singleton hgRib hreserved)
      { start with defaultPolicy := some idClosing } rfl rfl hplace
      (Derived.ribGroupPolicyName group.name)
  have hchain : ∃ b env', (firstMatched ask
        ([name] ++ [Derived.protocolDefaultName group.protocol .inbound])).Gives
          { start with defaultPolicy := some idClosing } b env' ∧ env'.overlay = writes ∧
      (stance.flow false).actionOr (.ofBool (group.protocol.covers route.protocol)) =
        .ofBool b := by
    rw [Stance.actionOr_flow]
    cases hverdict : stance.verdict with
    | matched b =>
      rw [hverdict] at hasked
      exact ⟨b, env, gives_firstMatched_matched hasked, hoverlay, rfl⟩
    | unmatched =>
      rw [hverdict] at hasked
      have hclosed : (t.runPolicy s ([idRib] ++ [idClosing]) closing).Gives env
          (.exits (.ofBool (group.protocol.covers env.route.protocol))) env := by
        rw [hrunClosing]
        exact Derived.gives_protocolDefault _ _
      have hanswer := ((Table.Places.singleton hgRib).append hne hgClosing).gives_askNamed hdepth
        (Derived.ribGroupPolicyName group.name) hplaceClosing hgClosing hclosed
      rw [Action.verdict_exits_ofBool, hroute, htreats.protocol_eq] at hanswer
      exact ⟨_, _, gives_firstMatched_unmatched hasked (gives_firstMatched_matched hanswer),
        hoverlay, rfl⟩
  obtain ⟨b, env', hmatched, hwrites, haction⟩ := hchain
  have hprogram : (t.runPolicy s [idRib] rib).Gives start (.exits (.ofBool b)) env' := by
    rw [hrunRib]
    exact Derived.gives_ribGroupPolicy hplaceClosing hmatched
  have hid : t.idOf? (Derived.ribGroupPolicyName group.name) = some idRib := hidRib
  rw [Table.evaluate_of_runFrom hid hgRib (Table.runFrom_of_exits _ hprogram), hwrites, haction]

/-- The gate of an instance whose import is one policy of a user lets in what the policy accepts. -/
theorem evaluate_instanceImport (h : c.Converted r t) (hdepth : t.size ≤ s.maxCallDepth)
    (htreats : t.Treats s id p route stance after writes) {name : String}
    (hplace : placeOf r.names name = some id) {i : InstanceImport} (hi : i ∈ c.instanceImports)
    (hpolicies : i.policies = [name]) (d : Direction) :
    (t.evaluate s (Derived.instanceImportGateName i.vrf) route d).2 =
      .ok ⟨.ofBool (stance.flow false == .exits .accept), writes⟩ := by
  obtain ⟨himport, hgate⟩ := h.mem_instanceImport hi
  rw [hpolicies] at himport
  obtain ⟨idGate, gate, hplaceGate, hidGate, hgGate, hreservedGate, hrunGate⟩ :=
    h.entry_derived hgate (isReservedName_derivedName _)
  obtain ⟨idImport, inner, hplaceImport, -, hgImport, hreservedImport, hrunImport⟩ :=
    h.entry_derived himport (isReservedName_derivedName _)
  obtain ⟨idReject, -, hplaceReject, -⟩ := h.entry h.mem_defaultReject
  have hne : idImport ∉ [idGate] :=
    place_notMem himport hgate hplaceImport hplaceGate fun heq =>
      Statement.noConfusion (Option.some.inj heq)
  have hplaces := (Table.Places.singleton hgGate).append hne hgImport
  let start : Environment := Table.freshen s d gate.name (Table.startOf route)
  have hreserved := (Table.reserved_singleton hgGate hreservedGate).append hgImport hreservedImport
  obtain ⟨env, hasked, -, hoverlay⟩ :=
    htreats.gives_askNamed hdepth hplaces hreserved
      { start with defaultPolicy := some idReject } rfl rfl hplace
      (Derived.instanceImportPolicyName i.vrf)
  have hinner : (t.runPolicy s ([idGate] ++ [idImport]) inner).Gives start
      (.returns (.matched stance.verdict.isTrue)) env := by
    rw [hrunImport]
    exact Derived.gives_instanceImportPolicy hplaceReject (gives_firstMatched_singleton hasked)
  have hanswer := hplaces.gives_askNamed hdepth (Derived.instanceImportGateName i.vrf)
    hplaceImport hgImport hinner
  have hprogram : (t.runPolicy s [idGate] gate).Gives start
      (.exits (.ofBool stance.verdict.isTrue))
      { env with
        defaultAction := start.defaultAction, defaultPolicy := start.defaultPolicy } := by
    rw [hrunGate]
    exact Derived.gives_instanceImportGate (v := .matched stance.verdict.isTrue) hanswer
  have hid : t.idOf? (Derived.instanceImportGateName i.vrf) = some idGate := hidGate
  rw [Table.evaluate_of_runFrom hid hgGate (Table.runFrom_of_exits _ hprogram),
    stance.isTrue_verdict false, hoverlay]

end Converted

/-- **Policies of users do not depend on their context.**  In a configuration whose clauses name no
derived policy, let a policy statement run on top level on a route, where calls may nest as deep as
the table is long.  The run ends with a flow and an overlay, and

* a peer whose import chain is the statement, and a RIB group that imports by it, come to the same
  overlay and the same action, or to what the default of their own protocol says when the flow is
  not an exit;
* the gate of an instance that imports by it comes to the same overlay and accepts exactly when the
  statement did;
* below any callers that are derived policies, the statement comes to the same overlay and the same
  route, exits if and only if it did on top level, and has the same verdict. -/
theorem evaluate_userPolicy {c : Configuration} {notices : List Notice} {t : Table}
    (hconvert : c.convert = (notices, .ok t)) (hasks : c.AsksUsers) {statement : PolicyStatement}
    (hstatement : statement ∈ c.policyStatements) {s : Settings}
    (hdepth : t.size ≤ s.maxCallDepth) (route : Route) (d : Direction) :
    ∃ id p flow env, t.idOf? statement.name = some id ∧ t.get? id = some p ∧
      (t.runPolicy s [id] p (Table.freshen s d statement.name (Table.startOf route))).result =
        .ok (flow, env) ∧
      (∀ peer ∈ c.peers, peer.inbound = [statement.name] →
        (t.evaluate s (Derived.peerChainName peer.name .inbound) route d).2 =
          .ok ⟨flow.actionOr (.ofBool (peer.protocol.covers route.protocol)), env.overlay⟩) ∧
      (∀ group ∈ c.ribGroups, group.inbound = [statement.name] →
        (t.evaluate s (Derived.ribGroupPolicyName group.name) route d).2 =
          .ok ⟨flow.actionOr (.ofBool (group.protocol.covers route.protocol)), env.overlay⟩) ∧
      (∀ i ∈ c.instanceImports, i.policies = [statement.name] →
        (t.evaluate s (Derived.instanceImportGateName i.vrf) route d).2 =
          .ok ⟨.ofBool (flow == .exits .accept), env.overlay⟩) ∧
      (∀ callers, t.Places callers → t.Reserved callers → ∀ env₀ : Environment,
        env₀.route = route → env₀.overlay = .empty → ∃ flow' env',
          (t.runPolicy s (callers ++ [id]) p env₀).result = .ok (flow', env') ∧
          env'.overlay = env.overlay ∧ env'.route = env.route ∧ flow'.verdict = flow.verdict ∧
          ∀ action, flow' = .exits action ↔ flow = .exits action) := by
  obtain ⟨r, hconverted⟩ := exists_converted hconvert
  have hmem : statement.compile c.prefixLists ∈ r.policies := by
    rw [hconverted.mem_iff]
    refine ⟨⟨statement.notices c.prefixLists, statement.compile c.prefixLists⟩, ?_, rfl⟩
    simp only [definitions, List.mem_append, List.mem_map]
    exact .inl (.inl (.inl (.inl (.inr ⟨statement, hstatement, rfl⟩))))
  have hname : isReservedName statement.name = false := by
    rcases hconverted.namesAllowed _ hmem with hderived | hname
    · cases hderived
    · exact hname
  obtain ⟨id, -, hplace, hid, -⟩ := hconverted.entry hmem
  obtain ⟨p, hg, -, htreats⟩ := hconverted.exists_treats hasks hdepth hplace hname
  obtain ⟨stance, after, writes, htreats⟩ := htreats route
  have hnil : t.Places [] := ⟨List.nodup_nil, fun id hid => by cases hid⟩
  obtain ⟨env, hrun, hroute, hoverlay, -⟩ := htreats.run [] hnil .nil
    (Table.freshen s d statement.name (Table.startOf route)) rfl rfl
  refine ⟨id, p, stance.flow false, env, hid, hg, hrun, ?_, ?_, ?_, ?_⟩
  · intro peer hpeer hinbound
    rw [hoverlay]
    exact hconverted.evaluate_peer hdepth htreats hplace hpeer hinbound d
  · intro group hgroup hinbound
    rw [hoverlay]
    exact hconverted.evaluate_ribGroup hdepth htreats hplace hgroup hinbound d
  · intro i hi hpolicies
    rw [hoverlay]
    exact hconverted.evaluate_instanceImport hdepth htreats hplace hi hpolicies d
  · intro callers hplaces hreserved env₀ hroute₀ hoverlay₀
    obtain ⟨env', hrun', hroute', hoverlay', -⟩ :=
      htreats.run callers hplaces hreserved env₀ hroute₀ hoverlay₀
    refine ⟨_, env', hrun', hoverlay'.trans hoverlay.symm, hroute'.trans hroute.symm, ?_, ?_⟩
    · rw [Stance.verdict_flow, Stance.verdict_flow]
    · intro action
      rw [Stance.flow_eq_exits_iff, Stance.flow_eq_exits_iff]

/-- Two policy statements that ask each other, the first of which leaves routes open, behind a peer,
a RIB group of another protocol and an instance. -/
theorem evaluate_userPolicy_mutual :
    let c : Configuration :=
      { policyStatements := [
          { name := "a", terms := [{ clauses := [.policy ["b"]], actions := [.metricAdd 5] }] },
          { name := "b"
            terms := [{ clauses := [.policyChain ["a"]], actions := [.reject] },
              { actions := [.tag 7, .accept] }] }]
        peers := [{ name := "n", inbound := ["a"] }]
        ribGroups := [{ name := "g", protocol := .static, inbound := ["a"] }]
        instanceImports := [{ vrf := "v", policies := ["a"] }] }
    ∃ notices t, c.convert = (notices, .ok t) ∧ c.AsksUsers ∧
      t.size ≤ Settings.maxCallDepth {} ∧ ∃ (flow : Flow) (env : Environment),
        (t.evaluate {} (Derived.peerChainName "n" .inbound) {} .inbound).2 =
          .ok ⟨flow.actionOr .reject, env.overlay⟩ ∧
        (t.evaluate {} (Derived.ribGroupPolicyName "g") {} .inbound).2 =
          .ok ⟨flow.actionOr .accept, env.overlay⟩ ∧
        (t.evaluate {} (Derived.instanceImportGateName "v") {} .inbound).2 =
          .ok ⟨.ofBool (flow == .exits .accept), env.overlay⟩ := by
  intro c
  have hasks : c.AsksUsers := by
    intro statement hstatement name hname
    obtain ⟨term, hterm, clause, hclause, hmem⟩ := hname
    have hall : ∀ statement ∈ c.policyStatements, ∀ term ∈ statement.allTerms,
        ∀ clause ∈ term.clauses, ∀ name ∈ clause.policies, isReservedName name = false := by
      decide
    exact hall statement hstatement term hterm clause hclause name hmem
  rcases hconvert : c.convert with ⟨notices, e | t⟩
  · have hok : c.convert.2.toBool = true := by decide
    rw [hconvert] at hok
    cases hok
  · have hsize : t.size ≤ Settings.maxCallDepth {} := by
      have hbound : (match c.convert.2 with
          | .ok t => decide (t.size ≤ Settings.maxCallDepth {})
          | .error _ => false) = true := by
        decide
      rw [hconvert] at hbound
      exact of_decide_eq_true hbound
    obtain ⟨id, p, flow, env, -, -, -, hpeers, hgroups, hinstances, -⟩ :=
      evaluate_userPolicy hconvert hasks List.mem_cons_self hsize {} .inbound
    have hpeer := hpeers { name := "n", inbound := ["a"] } List.mem_cons_self rfl
    have hgroup := hgroups { name := "g", protocol := .static, inbound := ["a"] }
      List.mem_cons_self rfl
    have hinstance := hinstances { vrf := "v", policies := ["a"] } List.mem_cons_self rfl
    exact ⟨notices, t, rfl, hasks, hsize, flow, env, hpeer, hgroup, hinstance⟩

end Configuration

end RoutePolicy
