import RoutePolicy.Derived.Policy
import RoutePolicy.Proofs.Configuration.Guard
import RoutePolicy.Proofs.Evaluation.Agreement

/-!
# What derived policies do

The programs that builders make, from what the policies do that they call or ask.

* `Statement.performAll_setDefaultPolicy`, `Statement.performAll_decision` — a default policy that
  is set first, and a branch with one control statement on each side;
* `Derived.performAll_protocolDefault` — the default policy of a protocol;
* `Derived.performAll_peerChain`, `Derived.performAll_generationPolicy` — chains of any length;
* `Derived.performAll_ribGroupPolicy`, `Derived.performAll_instanceImportPolicy`,
  `Derived.performAll_instanceImportGate` — the policies that ask others;
* `Derived.gives_peerChain`, `Derived.gives_ribGroupPolicy`, `Derived.gives_instanceImportPolicy`,
  `Derived.gives_instanceImportGate` — the same for a run whose end is known.
-/

set_option autoImplicit false

namespace RoutePolicy

open Evaluation (Gives)

section

variable {ask : String → Evaluation Verdict} {name : String} {names : List String}
  {env mid after : Environment} {b : Bool}

/-- The first policy of a chain decides it when its verdict is definite. -/
theorem gives_firstMatched_matched (h : (ask name).Gives env (.matched b) after) :
    (firstMatched ask (name :: names)).Gives env b after :=
  h.bind (.pure b after)

/-- A policy without a definite verdict leaves a chain to the ones behind it. -/
theorem gives_firstMatched_unmatched (h : (ask name).Gives env .unmatched mid)
    (hrest : (firstMatched ask names).Gives mid b after) :
    (firstMatched ask (name :: names)).Gives env b after :=
  h.bind hrest

theorem gives_firstMatched_singleton {v : Verdict} (h : (ask name).Gives env v after) :
    (firstMatched ask [name]).Gives env v.isTrue after := by
  cases v with
  | matched b => exact gives_firstMatched_matched h
  | unmatched => exact gives_firstMatched_unmatched h (.pure false after)

end

variable {names : List String} {ctx : Context} {env after : Environment} {flow : Flow}

namespace Condition

theorem holds_firstMatch_named (policies : List String) :
    (firstMatch (policies.map Reference.named)).holds names ctx =
      firstMatched (ctx.askNamed names) policies := by
  have hunlinked : ∀ r ∈ policies.map Reference.named, r.link = none := by
    intro r hr
    obtain ⟨name, -, rfl⟩ := List.mem_map.mp hr
    rfl
  have hnames : (policies.map Reference.named).map (·.name) = policies := by
    rw [List.map_map]
    exact List.map_id policies
  rw [holds_firstMatch, askFirst_names names ctx hunlinked, hnames]

end Condition

namespace Statement

/-- A program that sets a defined default policy first goes on with that default policy. -/
theorem performAll_setDefaultPolicy {target : Reference} {id : PolicyId} {ss : List Statement}
    (hplace : placeOf names target.name = some id) (env : Environment) :
    performAll names ctx (.setDefaultPolicy target :: ss) env =
      performAll names ctx ss { env with defaultPolicy := some id } := by
  have hset : (setDefaultPolicy target).perform names ctx =
      Evaluation.modify (fun env => { env with defaultPolicy := some id }) >>= fun _ =>
        pure .fallsThrough := by
    rw [perform_setDefaultPolicy, hplace]
  rw [performAll_cons, hset, Evaluation.modify_thenIf_apply]

theorem gives_setDefaultPolicy {target : Reference} {id : PolicyId} {ss : List Statement}
    (hplace : placeOf names target.name = some id)
    (h : (performAll names ctx ss).Gives { env with defaultPolicy := some id } flow after) :
    (performAll names ctx (.setDefaultPolicy target :: ss)).Gives env flow after :=
  (congrArg Outcome.result (performAll_setDefaultPolicy hplace env)).trans h

/-- A branch between two control statements. -/
theorem performAll_decision (guard : Condition) (yes no : Control) :
    performAll names ctx [.branch guard [.control yes] [.control no]] =
      guard.holds names ctx >>= fun taken => if taken then yes.run else no.run := by
  simp only [performAll_singleton, perform_branch, perform_control]

end Statement

/-- The action that is taken when a truth value settles it. -/
def Action.ofBool (b : Bool) : Action := if b then .accept else .reject

theorem Action.verdict_exits_ofBool (b : Bool) : (Flow.exits (.ofBool b)).verdict = .matched b := by
  cases b <;> rfl

namespace Derived

open Statement (performAll)

/-- The default policy of a protocol accepts the routes that the protocol covers. -/
theorem performAll_protocolDefault (p : Protocol) (d : Direction) (env : Environment) :
    performAll names ctx (protocolDefault p d).statements env =
      ⟨[], .ok (.exits (.ofBool (p.covers env.route.protocol)), env)⟩ := by
  show performAll names ctx [.branch (.test (.protocol p)) [.control .exitAccept]
    [.control .exitReject]] env = _
  rw [Statement.performAll_singleton, Statement.perform_branch, Condition.holds_test,
    Statement.performAll_singleton, Statement.performAll_singleton, Statement.perform_control,
    Statement.perform_control, Evaluation.bind_apply, Evaluation.map_apply]
  simp only [Evaluation.get, Predicate.holds]
  cases p.covers env.route.protocol <;> rfl

theorem gives_protocolDefault (p : Protocol) (d : Direction) :
    (performAll names ctx (protocolDefault p d).statements).Gives env
      (.exits (.ofBool (p.covers env.route.protocol))) env :=
  congrArg Outcome.result (performAll_protocolDefault p d env)

/-- A chain makes its default policy known and then makes its calls. -/
theorem performAll_peerChain {peer defaultPolicy : String} {d : Direction} {policies : List String}
    {id : PolicyId} (hplace : placeOf names defaultPolicy = some id) (env : Environment) :
    performAll names ctx (peerChain peer d defaultPolicy policies).statements env =
      performAll names ctx (policies.map fun p => .call (.named p))
        { env with defaultPolicy := some id } :=
  Statement.performAll_setDefaultPolicy hplace env

/-- The policy of an aggregate rejects what cannot contribute to it, and otherwise accepts by
default and makes its calls. -/
theorem performAll_generationPolicy (aggregate : Prefix) (policies : List String)
    (env : Environment) :
    performAll names ctx (generationPolicy aggregate policies).statements env =
      if env.route.network.isMoreSpecificOf aggregate = true then
        performAll names ctx (policies.map fun p => .call (.named p))
          { env with defaultAction := .accept }
      else ⟨[], .ok (.exits .reject, env)⟩ := by
  show performAll names ctx (.branch (.test (.contributesTo aggregate)) [] [.control .exitReject] ::
    .control .defaultAccept :: _) env = _
  rw [Statement.performAll_cons, Statement.performAll_cons, Statement.perform_branch,
    Condition.holds_test, Statement.performAll_nil, Statement.performAll_singleton,
    Statement.perform_control, Statement.perform_control, Evaluation.bind_thenIf,
    Evaluation.bind_apply, Evaluation.map_apply]
  simp only [Evaluation.get, Predicate.holds, List.nil_append]
  cases env.route.network.isMoreSpecificOf aggregate with
  | true =>
    have hset : (Control.defaultAccept).run =
        Evaluation.modify (fun env => { env with defaultAction := .accept }) >>= fun _ =>
          pure .fallsThrough := rfl
    rw [if_pos rfl, if_pos rfl, Evaluation.pure_thenIf, hset, Evaluation.modify_thenIf_apply]
  | false => rfl

/-- A chain of one policy makes the default policy known and calls the policy. -/
theorem gives_peerChain {peer defaultPolicy policy : String} {d : Direction} {id : PolicyId}
    (hplace : placeOf names defaultPolicy = some id)
    (h : (ctx.call ((Reference.named policy).linkOrKeep names)).Gives
      { env with defaultPolicy := some id } flow after) :
    (performAll names ctx (peerChain peer d defaultPolicy [policy]).statements).Gives env flow
      after := by
  refine Statement.gives_setDefaultPolicy hplace ?_
  have hcall : Statement.performAll names ctx [.call (.named policy)] =
      ctx.call ((Reference.named policy).linkOrKeep names) := by
    rw [Statement.performAll_singleton, Statement.perform_call names ctx rfl]
  exact hcall ▸ h

/-- The policy of a RIB group makes the default policy of the protocol known and exits as the first
policy that decides, the default policy being the last. -/
theorem performAll_ribGroupPolicy {group : String} {p : Protocol} {policies : List String}
    {id : PolicyId} (hplace : placeOf names (protocolDefaultName p .inbound) = some id)
    (env : Environment) :
    performAll names ctx (ribGroupPolicy group p policies).statements env =
      ((fun b => Flow.exits (.ofBool b)) <$>
        firstMatched (ctx.askNamed names) (policies ++ [protocolDefaultName p .inbound]))
          { env with defaultPolicy := some id } := by
  have hchain : policies.map Reference.named ++ [.named (protocolDefaultName p .inbound)] =
      (policies ++ [protocolDefaultName p .inbound]).map Reference.named := by
    rw [List.map_append, List.map_singleton]
  refine (Statement.performAll_setDefaultPolicy hplace env).trans (congrFun ?_ _)
  rw [hchain, Statement.performAll_decision, Condition.holds_firstMatch_named, map_eq_pure_bind]
  refine bind_congr fun b => ?_
  cases b <;> rfl

/-- The import policy of an instance makes the policy known that rejects everything and returns what
the first policy says that decides. -/
theorem performAll_instanceImportPolicy {vrf : String} {policies : List String} {id : PolicyId}
    (hplace : placeOf names defaultRejectName = some id) (env : Environment) :
    performAll names ctx (instanceImportPolicy vrf policies).statements env =
      ((fun b => Flow.returns (.matched b)) <$> firstMatched (ctx.askNamed names) policies)
        { env with defaultPolicy := some id } := by
  refine (Statement.performAll_setDefaultPolicy hplace env).trans (congrFun ?_ _)
  rw [Statement.performAll_decision, Condition.holds_firstMatch_named, map_eq_pure_bind]
  refine bind_congr fun b => ?_
  cases b <;> rfl

/-- The gate of an instance exits as the import policy of the instance says. -/
theorem performAll_instanceImportGate (vrf : String) :
    performAll names ctx (instanceImportGate vrf).statements =
      (fun v => Flow.exits (.ofBool v.isTrue)) <$>
        ctx.askNamed names (instanceImportPolicyName vrf) := by
  refine (Statement.performAll_decision _ _ _).trans ?_
  rw [Condition.holds_callPolicy, ctx.ask_linkOrKeep names rfl, map_eq_pure_bind, bind_assoc,
    map_eq_pure_bind]
  refine bind_congr fun v => ?_
  rw [pure_bind]
  cases v.isTrue <;> rfl

/-- The policy of a RIB group does as the first policy that decides, the default policy of the
protocol being the last. -/
theorem gives_ribGroupPolicy {group : String} {p : Protocol} {policies : List String}
    {id : PolicyId} (hplace : placeOf names (protocolDefaultName p .inbound) = some id) {b : Bool}
    (h : (firstMatched (ctx.askNamed names) (policies ++ [protocolDefaultName p .inbound])).Gives
      { env with defaultPolicy := some id } b after) :
    (performAll names ctx (ribGroupPolicy group p policies).statements).Gives env
      (.exits (.ofBool b)) after :=
  (congrArg Outcome.result (performAll_ribGroupPolicy hplace env)).trans (h.map _)

/-- The import policy of an instance returns what the first policy says that decides. -/
theorem gives_instanceImportPolicy {vrf : String} {policies : List String} {id : PolicyId}
    (hplace : placeOf names defaultRejectName = some id) {b : Bool}
    (h : (firstMatched (ctx.askNamed names) policies).Gives
      { env with defaultPolicy := some id } b after) :
    (performAll names ctx (instanceImportPolicy vrf policies).statements).Gives env
      (.returns (.matched b)) after :=
  (congrArg Outcome.result (performAll_instanceImportPolicy hplace env)).trans (h.map _)

/-- The gate of an instance accepts what the import policy of the instance holds true. -/
theorem gives_instanceImportGate {vrf : String} {v : Verdict}
    (h : (ctx.askNamed names (instanceImportPolicyName vrf)).Gives env v after) :
    (performAll names ctx (instanceImportGate vrf).statements).Gives env
      (.exits (.ofBool v.isTrue)) after := by
  rw [performAll_instanceImportGate]
  exact h.map _

end Derived

end RoutePolicy
