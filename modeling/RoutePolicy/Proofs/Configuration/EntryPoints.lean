import RoutePolicy.Proofs.Configuration.Chains

/-!
# RIB groups and instances decide, and fail closed

The policies of RIB groups and instances ask a list of members in order, each on the route as the
ones before have left it, and do as the first one with a definite verdict.  A member can be any
policy: one that is not defined, one that is running already, or a derived one.  A RIB group leaves
what its members do not decide to the default policy of its protocol, and an instance rejects it.

* `Table.answersBelow` — what a policy is answered that runs on behalf of others;
* `Table.ask_apply` — a policy that is entered when it is asked;
* `Table.parallel_firstDefinite` — members do the same whatever the defaults are;
* `Configuration.Converted.evaluate_ribGroupPolicy`,
  `Configuration.Converted.evaluate_instanceImportGate`,
  `Configuration.Converted.evaluate_instanceImportPolicy` — the three derived policies;
* `Configuration.evaluate_entryPoints` — all of them.
-/

set_option autoImplicit false

namespace RoutePolicy

open Evaluation (Gives)

/-- The truth value of a verdict, when another one is taken for a verdict that is not definite. -/
def Verdict.valueOr (open_ : Bool) : Verdict → Bool
  | .matched b => b
  | .unmatched => open_

theorem Evaluation.Gives.exists_apply {α : Type} {x : Evaluation α} {env after : Environment}
    {a : α} (h : x.Gives env a after) : ∃ ran, x env = ⟨ran, .ok (a, after)⟩ :=
  ⟨(x env).notices, congrArg (Outcome.mk _) h⟩

namespace Table

variable {t : Table} {s : Settings}

/-- What a table answers to a policy that runs on behalf of other policies, the first of which runs
at top level. -/
def answersBelow (t : Table) (maxCallDepth : Nat) (callers : List String) (policy : String) :
    String → Evaluation Verdict :=
  t.answer { maxCallDepth } ((callers ++ [policy]).filterMap t.idOf?) policy

/-- The top-level run of a policy ends by an explicit exit. -/
def ExitsOnTop (t : Table) (s : Settings) (policy : String) (route : Route) (d : Direction)
    (action : Action) : Prop :=
  ∃ id p after, t.idOf? policy = some id ∧ t.get? id = some p ∧
    (t.runPolicy s [id] p).Gives (freshen s d p.name (startOf route)) (.exits action) after

/-- An evaluation whose top-level run ends by an explicit exit. -/
theorem ExitsOnTop.of_run {policy : String} {route : Route} {d : Direction} {id : PolicyId}
    {p : Policy} {action : Action} {after : Environment} {ran : List Notice}
    (hid : t.idOf? policy = some id) (hg : t.get? id = some p)
    (hrun : t.runPolicy s [id] p (freshen s d p.name (startOf route)) =
      ⟨ran, .ok (.exits action, after)⟩) :
    t.ExitsOnTop s policy route d action ∧
      (t.evaluate s policy route d).2 = .ok { result := action, attributes := after.overlay } ∧
      diagnosticsOf (t.evaluate s policy route d).1 = diagnosticsOf ran := by
  have hgives : (t.runPolicy s [id] p).Gives (freshen s d p.name (startOf route))
      (.exits action) after := congrArg Outcome.result hrun
  exact ⟨⟨id, p, after, hid, hg, hgives⟩, evaluate_decides hid hg hrun rfl⟩

theorem answersBelow_top {policy : String} {id : PolicyId} (hid : t.idOf? policy = some id) :
    t.answersBelow s.maxCallDepth [] policy = t.answer s [id] policy := by
  rw [answersBelow, List.nil_append, List.filterMap_cons_some hid]
  exact answer_settings (by rfl) _ _

theorem answersBelow_inner {caller policy : String} {id inner : PolicyId}
    (hid : t.idOf? caller = some id) (hinner : t.idOf? policy = some inner) :
    t.answersBelow s.maxCallDepth [caller] policy = t.answer s [id, inner] policy := by
  rw [answersBelow, List.singleton_append, List.filterMap_cons_some hid,
    List.filterMap_cons_some hinner]
  exact answer_settings (by rfl) _ _

/-- A policy that is entered when it is asked makes its run, gives its verdict, and leaves the
defaults as they were. -/
theorem ask_apply {stack : List PolicyId} (policy : String) {id : PolicyId} {p : Policy}
    {ref : Reference} (hlink : ref.link = some id) (hg : t.get? id = some p) (hfresh : id ∉ stack)
    (hdepth : stack.length - 1 < s.maxCallDepth) (env : Environment) :
    (t.context s stack policy).ask ref env =
      match t.runPolicy s (stack ++ [id]) p env with
      | ⟨ran, .error e⟩ => ⟨ran, .error e⟩
      | ⟨ran, .ok (flow, after)⟩ =>
        ⟨ran ++ [.event (.callEvaluated policy p.name flow.verdict)], .ok (flow.verdict,
          { after with
            defaultAction := env.defaultAction, defaultPolicy := env.defaultPolicy })⟩ := by
  have hvisit : (t.context s stack policy).visit ref =
      t.runPolicy s (stack ++ [id]) p >>= fun flow => pure (.ran p.name flow) := by
    have henter : (t.context s stack policy).visit ref = t.enter s stack policy id := by
      rw [Context.visit, hlink]
      rfl
    rw [henter, enter, hg]
    simp only [if_neg hfresh, if_neg (Nat.not_le.mpr hdepth)]
  rw [Context.ask, Evaluation.get_bind_apply, hvisit, bind_assoc, Evaluation.bind_apply]
  rcases t.runPolicy s (stack ++ [id]) p env with ⟨ran, e | ⟨flow, after⟩⟩
  · rfl
  · rfl

/-- Members that are asked in order give the same verdict and report the same notices from
environments with the same route and the same writes. -/
theorem parallel_firstDefinite (t : Table) (s : Settings) (stack : List PolicyId) (policy : String)
    (protocol : Protocol) (members : List String) :
    Evaluation.Parallel (Environment.AlikeOf protocol)
      (firstDefinite (t.answer s stack policy) members)
      (firstDefinite (t.answer s stack policy) members) := by
  have hE := Environment.congruence_alikeOf (ρ := Eq) protocol
  induction members with
  | nil => exact .pure _
  | cons name members ih =>
    rw [firstDefinite]
    refine ((context_parallel_self hE t s stack policy).ask hE (optionRel_eq_refl _)).bind
      fun v => ?_
    split
    · exact .pure v
    · exact ih

/-- Members that are asked leave the defaults alone. -/
theorem keepsDefaults_firstDefinite (t : Table) (s : Settings) (stack : List PolicyId)
    (policy : String) (members : List String) :
    (firstDefinite (t.answer s stack policy) members).KeepsDefaults := by
  induction members with
  | nil => exact .pure _
  | cons name members ih =>
    rw [firstDefinite]
    refine (t.keepsDefaults_ask s stack policy _).bind fun v => ?_
    split
    · exact .pure v
    · exact ih

/-- What members do on a route at the start of an evaluation, they do from every environment with
that route and without writes. -/
theorem firstDefinite_of_start {stack : List PolicyId} {policy : String} {members : List String}
    {start after : Environment} {ran : List Notice} {verdict : Verdict} (env : Environment)
    (hrun : firstDefinite (t.answer s stack policy) members start = ⟨ran, .ok (verdict, after)⟩)
    (halike : start.Alike env) :
    ∃ after', firstDefinite (t.answer s stack policy) members env =
        ⟨ran, .ok (verdict, after')⟩ ∧
      after.Alike after' ∧ after'.route.protocol = env.route.protocol := by
  have hmatch := t.parallel_firstDefinite s stack policy start.route.protocol members start env
    ⟨halike, rfl⟩
  rw [hrun] at hmatch
  obtain ⟨after', hafter', hrelated⟩ := hmatch.of_ok
  refine ⟨after', hafter', hrelated.alike, ?_⟩
  rw [← hrelated.alike.route_eq, hrelated.protocol_eq, halike.route_eq]

end Table

namespace Configuration

namespace Converted

variable {c : Configuration} {r : Registry} {t : Table} {maxCallDepth : Nat}

/-! ## RIB groups -/

/-- The policy of a RIB group asks its members and then the default policy of the protocol, and
exits. -/
theorem run_ribGroupPolicy (h : c.Converted r t) {group : RibGroup} (hgroup : group ∈ c.ribGroups) :
    ∃ id p next closing, t.idOf? (Derived.ribGroupPolicyName group.name) = some id ∧
      t.get? id = some p ∧ t.get? next = some closing ∧ next ∉ [id] ∧
      t.idOf? (Derived.protocolDefaultName group.protocol .inbound) = some next ∧
      (∀ s env, t.runPolicy s [id] p env =
        ((fun v => Flow.exits (.ofBool v.isTrue)) <$>
          firstDefinite (t.answer s [id] (Derived.ribGroupPolicyName group.name))
            (group.inbound ++ [Derived.protocolDefaultName group.protocol .inbound]))
          { env with defaultPolicy := some next }) ∧
      ∀ s stack env, t.runPolicy s stack closing env =
        ⟨[], .ok (.exits (.ofBool (group.protocol.covers env.route.protocol)), env)⟩ := by
  obtain ⟨hclosing, hrib⟩ := h.mem_ribGroup hgroup
  obtain ⟨id, p, hplace, hid, hg, -, hrun⟩ := h.entry hrib
  obtain ⟨next, closing, hplaceNext, hidNext, hgNext, -, hrunNext⟩ := h.entry hclosing
  have hfresh : next ∉ [id] :=
    place_notMem hclosing hrib hplaceNext hplace fun heq =>
      Statement.noConfusion (Option.some.inj heq)
  refine ⟨id, p, next, closing, hid, hg, hgNext, hfresh, hidNext, fun s env => ?_,
    fun s stack env => ?_⟩
  · have hprogram := (congrFun (hrun s [id]) env).trans
      (Derived.performAll_ribGroupPolicy hplaceNext env)
    rw [← isTrue_firstDefinite, Functor.map_map, h.askNamed_eq] at hprogram
    exact hprogram
  · exact (congrFun (hrunNext s stack) env).trans
      (Derived.performAll_protocolDefault group.protocol .inbound env)

/-- A chain that ends in the default policy of a protocol decides every route: its members come
first, and the default policy reports no diagnostic. -/
theorem exists_closed {s : Settings} (hdepth : 1 ≤ s.maxCallDepth) {id next : PolicyId}
    {closing : Policy} {policy last : String} (hnext : t.idOf? last = some next)
    (hgNext : t.get? next = some closing) (hfresh : next ∉ [id]) {b : Bool}
    {members : List String} {env after : Environment} {ran : List Notice} {verdict : Verdict}
    (hmembers : firstDefinite (t.answer s [id] policy) members env = ⟨ran, .ok (verdict, after)⟩)
    (hclosing : t.runPolicy s [id, next] closing after = ⟨[], .ok (.exits (.ofBool b), after)⟩) :
    ∃ all, firstDefinite (t.answer s [id] policy) (members ++ [last]) env =
        ⟨all, .ok (.matched (verdict.valueOr b), after)⟩ ∧
      diagnosticsOf all = diagnosticsOf ran := by
  rw [firstDefinite_append, Evaluation.bind_apply, hmembers]
  cases verdict with
  | matched b' => exact ⟨ran, congrArg (Outcome.mk · _) (List.append_nil ran), rfl⟩
  | unmatched =>
    have hlast : firstDefinite (t.answer s [id] policy) [last] after =
        ⟨[.event (.callEvaluated policy closing.name (.matched b))], .ok (.matched b, after)⟩ := by
      rw [firstDefinite_singleton, Table.answer, t.ask_apply policy hnext hgNext hfresh hdepth,
        List.singleton_append, hclosing]
      simp only [Action.verdict_exits_ofBool, List.nil_append]
    refine ⟨ran ++ [.event (.callEvaluated policy closing.name (.matched b))], ?_, ?_⟩
    · show (⟨ran ++ (firstDefinite (t.answer s [id] policy) [last] after).notices,
        (firstDefinite (t.answer s [id] policy) [last] after).result⟩ : Outcome Verdict) = _
      rw [hlast]
      rfl
    · rw [diagnosticsOf_append, diagnosticsOf_event]
      exact List.append_nil _

/-- A RIB group exits as its members decide, and otherwise as its protocol covers the route. -/
theorem evaluate_ribGroupPolicy (h : c.Converted r t) (hdepth : 1 ≤ maxCallDepth) (route : Route)
    {group : RibGroup} (hgroup : group ∈ c.ribGroups) :
    let policy := Derived.ribGroupPolicyName group.name
    ∃ ran verdict after,
      firstDefinite (t.answersBelow maxCallDepth [] policy) group.inbound (Table.startOf route) =
        ⟨ran, .ok (verdict, after)⟩ ∧
      ∀ (defaultAction : Option Action) (d : Direction),
        let action := Action.ofBool (verdict.valueOr (group.protocol.covers route.protocol))
        let s : Settings := { defaultAction, maxCallDepth }
        t.ExitsOnTop s policy route d action ∧
          (t.evaluate s policy route d).2 = .ok { result := action, attributes := after.overlay } ∧
          diagnosticsOf (t.evaluate s policy route d).1 = diagnosticsOf ran := by
  intro policy
  obtain ⟨id, p, next, closing, hid, hg, hgNext, hfresh, hidNext, hrun, hrunNext⟩ :=
    h.run_ribGroupPolicy hgroup
  -- what the members do, from some run of the whole policy
  obtain ⟨ran, verdict, after, hmembers⟩ : ∃ ran verdict after,
      firstDefinite (t.answer { maxCallDepth } [id] policy) group.inbound (Table.startOf route) =
        ⟨ran, .ok (verdict, after)⟩ := by
    obtain ⟨all, flow, last, hall⟩ := h.exists_run hid hg { maxCallDepth } route .inbound
    rw [hrun] at hall
    obtain ⟨v, hasked, -⟩ := Evaluation.of_map_ok hall
    rw [firstDefinite_append] at hasked
    obtain ⟨verdict, mid, hmid, -⟩ := Gives.of_bind (congrArg Outcome.result hasked)
    obtain ⟨ran, hran⟩ := hmid.exists_apply
    obtain ⟨after, hafter, -⟩ :=
      Table.firstDefinite_of_start (Table.startOf route) hran ⟨rfl, rfl⟩
    exact ⟨ran, verdict, after, hafter⟩
  refine ⟨ran, verdict, after, ?_, fun defaultAction d => ?_⟩
  · rw [Table.answersBelow_top (s := { maxCallDepth }) hid]
    exact hmembers
  · intro action s
    let start : Environment :=
      { Table.freshen s d p.name (Table.startOf route) with defaultPolicy := some next }
    have hsettings : t.answer { maxCallDepth } [id] policy = t.answer s [id] policy :=
      Table.answer_settings (by rfl) _ _
    rw [hsettings] at hmembers
    obtain ⟨after', hafter', halike, hprotocol⟩ :=
      Table.firstDefinite_of_start start hmembers ⟨rfl, rfl⟩
    obtain ⟨all, hall, hdiagnostics⟩ :=
      exists_closed (s := s) hdepth hidNext hgNext hfresh hafter' (hrunNext s [id, next] after')
    have hexits : t.runPolicy s [id] p (Table.freshen s d p.name (Table.startOf route)) =
        ⟨all, .ok (.exits (.ofBool (verdict.valueOr
          (group.protocol.covers after'.route.protocol))), after')⟩ := by
      rw [hrun, Evaluation.map_apply, hall]
      rfl
    rw [hprotocol] at hexits
    obtain ⟨hexit, hresult, hnotices⟩ := Table.ExitsOnTop.of_run hid hg hexits
    rw [halike.overlay_eq]
    exact ⟨hexit, hresult, hnotices.trans hdiagnostics⟩

/-! ## Instances -/

variable {i : InstanceImport}

/-- The import policy of an instance asks its members and returns; the policy that rejects
everything is its default policy. -/
theorem run_instanceImportPolicy (h : c.Converted r t) (hi : i ∈ c.instanceImports) :
    ∃ id p next rejecting, t.idOf? (Derived.instanceImportPolicyName i.vrf) = some id ∧
      t.get? id = some p ∧ p.name = Derived.instanceImportPolicyName i.vrf ∧
      t.get? next = some rejecting ∧ next ∉ [id] ∧
      (∀ s stack env, t.runPolicy s stack p env =
        ((fun v => Flow.returns (.matched v.isTrue)) <$>
          firstDefinite (t.answer s stack (Derived.instanceImportPolicyName i.vrf)) i.policies)
          { env with defaultPolicy := some next }) ∧
      ∀ s stack env, t.runPolicy s stack rejecting env = ⟨[], .ok (.exits .reject, env)⟩ := by
  obtain ⟨himport, -⟩ := h.mem_instanceImport hi
  obtain ⟨id, p, hplace, hid, hg, hname, hrun⟩ := h.entry himport
  obtain ⟨next, rejecting, hplaceNext, -, hgNext, -, hrunNext⟩ := h.entry h.mem_defaultReject
  have hfresh : next ∉ [id] :=
    place_notMem h.mem_defaultReject himport hplaceNext hplace fun heq =>
      Statement.noConfusion (Option.some.inj heq)
  refine ⟨id, p, next, rejecting, hid, hg, hname, hgNext, hfresh, fun s stack env => ?_,
    fun s stack env => ?_⟩
  · have hprogram := (congrFun (hrun s stack) env).trans
      (Derived.performAll_instanceImportPolicy hplaceNext env)
    rw [← isTrue_firstDefinite, Functor.map_map, h.askNamed_eq] at hprogram
    exact hprogram
  · rw [hrunNext]
    rfl

/-- The gate of an instance asks the import policy of the instance and exits as it says. -/
theorem run_instanceImportGate (h : c.Converted r t) (hi : i ∈ c.instanceImports) :
    ∃ idGate gate, t.idOf? (Derived.instanceImportGateName i.vrf) = some idGate ∧
      t.get? idGate = some gate ∧
      (∀ id, t.idOf? (Derived.instanceImportPolicyName i.vrf) = some id → id ∉ [idGate]) ∧
      ∀ s, t.runPolicy s [idGate] gate = (fun v => Flow.exits (.ofBool v.isTrue)) <$>
        t.answer s [idGate] (Derived.instanceImportGateName i.vrf)
          (Derived.instanceImportPolicyName i.vrf) := by
  obtain ⟨himport, hgate⟩ := h.mem_instanceImport hi
  obtain ⟨idGate, gate, hplaceGate, hidGate, hg, -, hrun⟩ := h.entry hgate
  refine ⟨idGate, gate, hidGate, hg, fun id hid => ?_, fun s => ?_⟩
  · rw [h.idOf?_eq] at hid
    exact place_notMem himport hgate hid hplaceGate fun heq =>
      Statement.noConfusion (Option.some.inj heq)
  · have hprogram := (hrun s [idGate]).trans (Derived.performAll_instanceImportGate i.vrf)
    rw [h.askNamed_eq] at hprogram
    exact hprogram

/-- The import policy of an instance rejects every route when it is evaluated itself. -/
theorem evaluate_instanceImportPolicy (h : c.Converted r t) (maxCallDepth : Nat) (route : Route)
    (hi : i ∈ c.instanceImports) :
    let policy := Derived.instanceImportPolicyName i.vrf
    ∃ ran verdict after,
      firstDefinite (t.answersBelow maxCallDepth [] policy) i.policies (Table.startOf route) =
        ⟨ran, .ok (verdict, after)⟩ ∧
      ∀ (defaultAction : Option Action) (d : Direction),
        let s : Settings := { defaultAction, maxCallDepth }
        (t.evaluate s policy route d).2 =
            .ok { result := .reject, attributes := after.overlay } ∧
          diagnosticsOf (t.evaluate s policy route d).1 = diagnosticsOf ran := by
  intro policy
  obtain ⟨id, p, next, rejecting, hid, hg, -, hgNext, hfresh, hrun, hrunNext⟩ :=
    h.run_instanceImportPolicy hi
  obtain ⟨ran, verdict, after, hmembers⟩ : ∃ ran verdict after,
      firstDefinite (t.answer { maxCallDepth } [id] policy) i.policies (Table.startOf route) =
        ⟨ran, .ok (verdict, after)⟩ := by
    obtain ⟨ran, flow, last, hlast⟩ := h.exists_run hid hg { maxCallDepth } route .inbound
    rw [hrun] at hlast
    obtain ⟨verdict, hasked, -⟩ := Evaluation.of_map_ok hlast
    obtain ⟨after, hafter, -⟩ :=
      Table.firstDefinite_of_start (Table.startOf route) hasked ⟨rfl, rfl⟩
    exact ⟨ran, verdict, after, hafter⟩
  refine ⟨ran, verdict, after, ?_, fun defaultAction d => ?_⟩
  · rw [Table.answersBelow_top (s := { maxCallDepth }) hid]
    exact hmembers
  · intro s
    let start : Environment :=
      { Table.freshen s d p.name (Table.startOf route) with defaultPolicy := some next }
    have hsettings : t.answer { maxCallDepth } [id] policy = t.answer s [id] policy :=
      Table.answer_settings (by rfl) _ _
    rw [hsettings] at hmembers
    obtain ⟨after', hafter', halike, -⟩ :=
      Table.firstDefinite_of_start start hmembers ⟨rfl, rfl⟩
    have hreturns : t.runPolicy s [id] p (Table.freshen s d p.name (Table.startOf route)) =
        ⟨ran, .ok (.returns (.matched verdict.isTrue), after')⟩ := by
      rw [hrun, Evaluation.map_apply, hafter']
    have hdefault : after'.defaultPolicy = some next :=
      (t.keepsDefaults_firstDefinite s [id] policy i.policies start verdict after'
        (congrArg Outcome.result hafter')).2
    have hfalls : t.ending [id] after' (.returns (.matched verdict.isTrue)) =
        .fallsTo next rejecting := by
      simp only [Table.ending, hdefault, if_neg hfresh, hgNext]
    obtain ⟨hresult, hdiagnostics⟩ :=
      Table.evaluate_fallsTo hid hg hreturns hfalls (hrunNext s [next] _)
    rw [halike.overlay_eq]
    exact ⟨hresult, hdiagnostics.trans (List.append_nil _)⟩

/-- What the gate of an instance hears from the import policy: what its members decide. -/
theorem answer_instanceImportPolicy (h : c.Converted r t) {s : Settings}
    (hdepth : 1 ≤ s.maxCallDepth) (hi : i ∈ c.instanceImports) (caller : String)
    {idCaller id : PolicyId} (hid : t.idOf? (Derived.instanceImportPolicyName i.vrf) = some id)
    (hfresh : id ∉ [idCaller]) :
    ∃ next, ∀ env, t.answer s [idCaller] caller (Derived.instanceImportPolicyName i.vrf) env =
      match firstDefinite (t.answer s [idCaller, id] (Derived.instanceImportPolicyName i.vrf))
        i.policies { env with defaultPolicy := some next } with
      | ⟨ran, .error e⟩ => ⟨ran, .error e⟩
      | ⟨ran, .ok (verdict, after)⟩ =>
        ⟨ran ++ [.event (.callEvaluated caller (Derived.instanceImportPolicyName i.vrf)
            (.matched verdict.isTrue))],
          .ok (.matched verdict.isTrue,
            { after with
              defaultAction := env.defaultAction, defaultPolicy := env.defaultPolicy })⟩ := by
  obtain ⟨id', p, next, -, hid', hg, hname, -, -, hrun, -⟩ := h.run_instanceImportPolicy hi
  obtain rfl : id' = id := Option.some.inj (hid'.symm.trans hid)
  refine ⟨next, fun env => ?_⟩
  rw [Table.answer, t.ask_apply caller hid hg hfresh hdepth, List.singleton_append, hrun,
    Evaluation.map_apply, hname]
  rcases firstDefinite (t.answer s [idCaller, id'] (Derived.instanceImportPolicyName i.vrf))
    i.policies { env with defaultPolicy := some next } with ⟨ran, e | ⟨verdict, after⟩⟩
  · rfl
  · rfl

/-- The gate of an instance hears the same from every environment with the same route and the same
writes as one its members have been asked from. -/
theorem hears_instanceImportPolicy (h : c.Converted r t) {s : Settings}
    (hdepth : 1 ≤ s.maxCallDepth) (hi : i ∈ c.instanceImports) (caller : String)
    {idCaller id : PolicyId} (hid : t.idOf? (Derived.instanceImportPolicyName i.vrf) = some id)
    (hfresh : id ∉ [idCaller]) {start after : Environment} {ran : List Notice} {verdict : Verdict}
    (hmembers : firstDefinite (t.answer s [idCaller, id] (Derived.instanceImportPolicyName i.vrf))
      i.policies start = ⟨ran, .ok (verdict, after)⟩)
    (env : Environment) (halike : start.Alike env) :
    ∃ last, after.Alike last ∧
      t.answer s [idCaller] caller (Derived.instanceImportPolicyName i.vrf) env =
        ⟨ran ++ [.event (.callEvaluated caller (Derived.instanceImportPolicyName i.vrf)
            (.matched verdict.isTrue))], .ok (.matched verdict.isTrue, last)⟩ := by
  obtain ⟨next, hanswer⟩ :=
    h.answer_instanceImportPolicy (s := s) hdepth hi caller hid hfresh
  obtain ⟨mid, hmid, halikeMid, -⟩ :=
    Table.firstDefinite_of_start { env with defaultPolicy := some next } hmembers
      ⟨halike.route_eq, halike.overlay_eq⟩
  refine ⟨_, ?_, (hanswer env).trans (by rw [hmid])⟩
  exact ⟨halikeMid.route_eq, halikeMid.overlay_eq⟩

/-- The gate of an instance exits as the first definite member of the import policy says, and
rejects where there is none. -/
theorem evaluate_instanceImportGate (h : c.Converted r t) (hdepth : 1 ≤ maxCallDepth)
    (route : Route) (hi : i ∈ c.instanceImports) :
    let gate := Derived.instanceImportGateName i.vrf
    let policy := Derived.instanceImportPolicyName i.vrf
    ∃ ran verdict after,
      firstDefinite (t.answersBelow maxCallDepth [gate] policy) i.policies
          (Table.startOf route) = ⟨ran, .ok (verdict, after)⟩ ∧
      (∃ last, (t.answersBelow maxCallDepth [] gate policy).Gives (Table.startOf route)
        (.matched verdict.isTrue) last) ∧
      ∀ (defaultAction : Option Action) (d : Direction),
        let action := Action.ofBool verdict.isTrue
        let s : Settings := { defaultAction, maxCallDepth }
        t.ExitsOnTop s gate route d action ∧
          (t.evaluate s gate route d).2 = .ok { result := action, attributes := after.overlay } ∧
          diagnosticsOf (t.evaluate s gate route d).1 = diagnosticsOf ran := by
  intro gateName policy
  obtain ⟨id, -, -, -, hid, -, -, -, -, -, -⟩ := h.run_instanceImportPolicy hi
  obtain ⟨idGate, gate, hidGate, hgGate, hfresh, hrunGate⟩ := h.run_instanceImportGate hi
  -- what the members do, from some run of the gate
  obtain ⟨ran, verdict, after, hmembers⟩ : ∃ ran verdict after,
      firstDefinite (t.answer { maxCallDepth } [idGate, id] policy) i.policies
        (Table.startOf route) = ⟨ran, .ok (verdict, after)⟩ := by
    obtain ⟨all, flow, last, hall⟩ := h.exists_run hidGate hgGate { maxCallDepth } route .inbound
    rw [hrunGate] at hall
    obtain ⟨v, hasked, -⟩ := Evaluation.of_map_ok hall
    obtain ⟨next, hanswer⟩ := h.answer_instanceImportPolicy (s := { maxCallDepth }) hdepth hi
      gateName hid (hfresh id hid)
    rw [hanswer] at hasked
    split at hasked
    · cases hasked
    · rename_i ran verdict mid hmid
      obtain ⟨after, hafter, -⟩ :=
        Table.firstDefinite_of_start (Table.startOf route) hmid ⟨rfl, rfl⟩
      exact ⟨ran, verdict, after, hafter⟩
  refine ⟨ran, verdict, after, ?_, ?_, fun defaultAction d => ?_⟩
  · rw [Table.answersBelow_inner (s := { maxCallDepth }) hidGate hid]
    exact hmembers
  · obtain ⟨last, -, hanswer⟩ := h.hears_instanceImportPolicy (s := { maxCallDepth }) hdepth hi
      gateName hid (hfresh id hid) hmembers (Table.startOf route) ⟨rfl, rfl⟩
    rw [Table.answersBelow_top (s := { maxCallDepth }) hidGate]
    exact ⟨last, congrArg Outcome.result hanswer⟩
  · intro action s
    have hsettings : t.answer { maxCallDepth } [idGate, id] policy =
        t.answer s [idGate, id] policy := Table.answer_settings (by rfl) _ _
    rw [hsettings] at hmembers
    obtain ⟨last, halike, hanswer⟩ := h.hears_instanceImportPolicy (s := s) hdepth hi gateName hid
      (hfresh id hid) hmembers (Table.freshen s d gate.name (Table.startOf route)) ⟨rfl, rfl⟩
    have hexits : t.runPolicy s [idGate] gate (Table.freshen s d gate.name (Table.startOf route)) =
        ⟨ran ++ [.event (.callEvaluated gateName policy (.matched verdict.isTrue))],
          .ok (.exits action, last)⟩ := by
      rw [hrunGate, Evaluation.map_apply, hanswer]
      rfl
    obtain ⟨hexit, hresult, hnotices⟩ := Table.ExitsOnTop.of_run hidGate hgGate hexits
    rw [halike.overlay_eq]
    refine ⟨hexit, hresult, hnotices.trans ?_⟩
    rw [diagnosticsOf_append, diagnosticsOf_event]
    exact List.append_nil _

end Converted

/-- **RIB groups and instances decide, and fail closed.**  The policy of a RIB group ends by an
explicit exit on every route: it does as the first of its members with a definite verdict says, the
members being asked in order, each on the route as the ones before have left it, and without such a
member it accepts exactly the routes that the protocol of the group covers.  The gate of an instance
ends by an explicit exit as well: it accepts exactly when the import policy of the instance, asked
by the gate, comes to a first definite member that is true.  The import policy itself rejects every
route when it is evaluated at top level.  This is so whatever the members are, and whatever the
direction and the default action of the evaluation are. -/
theorem evaluate_entryPoints {c : Configuration} {t : Table} {notices : List Notice}
    (hconvert : c.convert = (notices, .ok t)) {maxCallDepth : Nat} (hdepth : 1 ≤ maxCallDepth)
    (route : Route) :
    (∀ group ∈ c.ribGroups,
      let policy := Derived.ribGroupPolicyName group.name
      ∃ ran verdict after,
        firstDefinite (t.answersBelow maxCallDepth [] policy) group.inbound
            (Table.startOf route) = ⟨ran, .ok (verdict, after)⟩ ∧
        ∀ (defaultAction : Option Action) (d : Direction),
          let action := Action.ofBool (verdict.valueOr (group.protocol.covers route.protocol))
          let s : Settings := { defaultAction, maxCallDepth }
          t.ExitsOnTop s policy route d action ∧
            (t.evaluate s policy route d).2 =
              .ok { result := action, attributes := after.overlay } ∧
            diagnosticsOf (t.evaluate s policy route d).1 = diagnosticsOf ran) ∧
    ∀ i ∈ c.instanceImports,
      let gate := Derived.instanceImportGateName i.vrf
      let policy := Derived.instanceImportPolicyName i.vrf
      (∃ ran verdict after,
        firstDefinite (t.answersBelow maxCallDepth [gate] policy) i.policies
            (Table.startOf route) = ⟨ran, .ok (verdict, after)⟩ ∧
        (∃ last, (t.answersBelow maxCallDepth [] gate policy).Gives (Table.startOf route)
          (.matched verdict.isTrue) last) ∧
        ∀ (defaultAction : Option Action) (d : Direction),
          let action := Action.ofBool verdict.isTrue
          let s : Settings := { defaultAction, maxCallDepth }
          t.ExitsOnTop s gate route d action ∧
            (t.evaluate s gate route d).2 =
              .ok { result := action, attributes := after.overlay } ∧
            diagnosticsOf (t.evaluate s gate route d).1 = diagnosticsOf ran) ∧
      ∃ ran verdict after,
        firstDefinite (t.answersBelow maxCallDepth [] policy) i.policies
            (Table.startOf route) = ⟨ran, .ok (verdict, after)⟩ ∧
        ∀ (defaultAction : Option Action) (d : Direction),
          let s : Settings := { defaultAction, maxCallDepth }
          (t.evaluate s policy route d).2 =
              .ok { result := .reject, attributes := after.overlay } ∧
            diagnosticsOf (t.evaluate s policy route d).1 = diagnosticsOf ran := by
  obtain ⟨r, hconverted⟩ := exists_converted hconvert
  refine ⟨fun group hgroup => hconverted.evaluate_ribGroupPolicy hdepth route hgroup,
    fun i hi => ⟨?_, ?_⟩⟩
  · exact hconverted.evaluate_instanceImportGate hdepth route hi
  · exact hconverted.evaluate_instanceImportPolicy maxCallDepth route hi

/-- A RIB group and an instance that each name an undefined policy, themselves, and a derived policy
that sets a default policy, before the one policy that decides. -/
theorem evaluate_entryPoints_reserved :
    let group : RibGroup :=
      { name := "g"
        inbound := ["missing", Derived.ribGroupPolicyName "g", Derived.peerChainName "n" .inbound,
          "a"] }
    let i : InstanceImport :=
      { vrf := "v"
        policies := ["missing", Derived.instanceImportGateName "v",
          Derived.instanceImportPolicyName "v", "a"] }
    let c : Configuration :=
      { policyStatements := [
          { name := "a", terms := [{ clauses := [.tag 7], actions := [.metricAdd 5, .reject] }] }]
        peers := [{ name := "n", inbound := ["a"] }]
        ribGroups := [group]
        instanceImports := [i] }
    ∃ notices t, c.convert = (notices, .ok t) ∧ 1 ≤ 64 ∧ group ∈ c.ribGroups ∧
      i ∈ c.instanceImports ∧
      (∃ ran verdict after,
        firstDefinite (t.answersBelow 64 [] (Derived.ribGroupPolicyName "g")) group.inbound
            (Table.startOf { protocol := .bgp }) = ⟨ran, .ok (verdict, after)⟩ ∧
        ∀ (defaultAction : Option Action) (d : Direction),
          t.ExitsOnTop { defaultAction, maxCallDepth := 64 } (Derived.ribGroupPolicyName "g")
            { protocol := .bgp } d (.ofBool (verdict.valueOr true))) ∧
      (∃ ran verdict after,
        firstDefinite (t.answersBelow 64 [Derived.instanceImportGateName "v"]
              (Derived.instanceImportPolicyName "v")) i.policies
            (Table.startOf { protocol := .bgp }) = ⟨ran, .ok (verdict, after)⟩ ∧
        ∀ (defaultAction : Option Action) (d : Direction),
          t.ExitsOnTop { defaultAction, maxCallDepth := 64 } (Derived.instanceImportGateName "v")
            { protocol := .bgp } d (.ofBool verdict.isTrue)) ∧
      ∃ overlay, ∀ (defaultAction : Option Action) (d : Direction),
        (t.evaluate { defaultAction, maxCallDepth := 64 } (Derived.instanceImportPolicyName "v")
          { protocol := .bgp } d).2 = .ok ⟨.reject, overlay⟩ := by
  intro group i c
  rcases hconvert : c.convert with ⟨notices, e | t⟩
  · have hok : c.convert.2.toBool = true := by decide +kernel
    rw [hconvert] at hok
    cases hok
  · have hdepth : 1 ≤ 64 := by decide
    obtain ⟨hgroups, himports⟩ := evaluate_entryPoints hconvert hdepth { protocol := .bgp }
    obtain ⟨ran, verdict, after, hasked, hexits⟩ := hgroups group List.mem_cons_self
    obtain ⟨⟨ranGate, verdictGate, afterGate, hgate, -, hexitsGate⟩,
      _, _, afterImport, -, hrejects⟩ := himports i List.mem_cons_self
    exact ⟨notices, t, rfl, hdepth, List.mem_cons_self, List.mem_cons_self,
      ⟨ran, verdict, after, hasked, fun defaultAction d => (hexits defaultAction d).1⟩,
      ⟨ranGate, verdictGate, afterGate, hgate, fun defaultAction d =>
        (hexitsGate defaultAction d).1⟩,
      afterImport.overlay, fun defaultAction d => (hrejects defaultAction d).1⟩

end Configuration

end RoutePolicy
