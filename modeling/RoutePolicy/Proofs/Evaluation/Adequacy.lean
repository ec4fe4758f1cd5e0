import RoutePolicy.Proofs.Evaluation.Machine

/-!
# The machine computes evaluations

Every evaluation is what the machine comes to, and the machine halts on every table.

* `Machine.Leads` — the machine goes from one state to another in some number of steps;
* `Machine.leads_runAll`, `Machine.leads_judge` — programs and conditions, by induction on the
  syntax, when the policies that can be entered are dealt with;
* `Machine.leads_runPolicy`, `Machine.leads_runFrom` — policies and top-level runs, by induction
  on what is not yet visited;
* `Machine.exists_outcome?_after` — whole evaluations;
* `Machine.evaluate_of_outcome?`, `Machine.evaluate_of_halts` — the other way round.
-/

set_option autoImplicit false

namespace RoutePolicy

namespace Machine

section

theorem Running.proceed_report {α : Type} (st : Running) (notices : List Notice)
    (f : Unit → Evaluation α) (next : α → Control) :
    st.proceed ((Evaluation.report notices >>= f) st.environment) next =
      Running.proceed { st with notices := st.notices ++ notices } (f () st.environment) next := by
  have hreport : (Evaluation.report notices >>= f) st.environment =
      ⟨notices ++ (f () st.environment).notices, (f () st.environment).result⟩ := rfl
  rw [hreport, proceed, proceed]
  simp only [List.append_assoc]

variable (t : Table) (s : Settings) (d : Direction)

/-- The machine goes from a state to another one. -/
inductive Leads : State → State → Prop where
  | refl (a : State) : Leads a a
  | next {a b : State} (h : Leads (step t s d a) b) : Leads a b

variable {t s d}

theorem Leads.trans {a b c : State} (hab : Leads t s d a b) (hbc : Leads t s d b c) :
    Leads t s d a c := by
  induction hab with
  | refl a => exact hbc
  | next _ ih => exact .next (ih hbc)

/-- What a computation leads to and what its continuation leads to from there. -/
theorem Leads.bind {α β : Type} {a : State} {st : Running} {x : Evaluation α}
    {f : α → Evaluation β} {mid : α → Control} {next : β → Control}
    (hx : Leads t s d a (st.proceed (x st.environment) mid))
    (hf : ∀ v env notices,
      Leads t s d (.running { st with control := mid v, environment := env, notices })
        (Running.proceed { st with environment := env, notices } (f v env) next)) :
    Leads t s d a (st.proceed ((x >>= f) st.environment) next) := by
  rw [Evaluation.bind_apply]
  rcases hrun : x st.environment with ⟨notices, e | ⟨v, env⟩⟩
  · rw [hrun] at hx
    exact hx
  · rw [hrun] at hx
    refine hx.trans ?_
    have hnext := hf v env (st.notices ++ notices)
    simp only [Running.proceed, List.append_assoc] at hnext ⊢
    exact hnext

/-- A computation that is over has its outcome. -/
theorem leads_pure {α : Type} (st : Running) (v : α) (env : Environment) (notices : List Notice)
    (next : α → Control) :
    Leads t s d (.running { st with control := next v, environment := env, notices })
      (Running.proceed { st with environment := env, notices } ((pure v : Evaluation α) env)
        next) := by
  rw [Evaluation.pure_apply]
  simp only [Running.proceed, List.append_nil]
  exact .refl _

/-- What a computation gives is turned into something else by what comes next. -/
theorem Leads.map {α β : Type} {a : State} {st : Running} {x : Evaluation α} (f : α → β)
    {next : β → Control}
    (h : Leads t s d a (st.proceed (x st.environment) fun v => next (f v))) :
    Leads t s d a (st.proceed ((x >>= fun v => pure (f v)) st.environment) next) := by
  have hmap : st.proceed ((x >>= fun v => pure (f v)) st.environment) next =
      st.proceed (x st.environment) fun v => next (f v) := by
    rw [Evaluation.bind_apply]
    rcases x st.environment with ⟨notices, e | ⟨v, env⟩⟩
    · rfl
    · simp only [Evaluation.pure_apply, Running.proceed, List.append_nil]
  rw [hmap]
  exact h

/-- The moment belongs to a policy that runs under a stack of callers. -/
structure Aligned (stack : List PolicyId) (policy : String) (st : Running) : Prop where
  policy_eq : st.policy = policy
  callStack_eq : st.callStack = stack
  callDepth_eq : st.callDepth + 1 = stack.length

theorem Aligned.moved {stack : List PolicyId} {policy : String} {st : Running}
    (h : Aligned stack policy st) (control : Control) (env : Environment) (notices : List Notice) :
    Aligned stack policy { st with control, environment := env, notices } :=
  ⟨h.policy_eq, h.callStack_eq, h.callDepth_eq⟩

variable (t s d) in
/-- The policies that may be entered do on the machine what they do in an evaluation. -/
def Callable (stack : List PolicyId) : Prop :=
  ∀ id callee, t.get? id = some callee → id ∉ stack →
    ∀ st next, Aligned (stack ++ [id]) callee.name st →
      Leads t s d (.running (st.goto (.runs callee.statements next)))
        (st.proceed (t.runPolicy s (stack ++ [id]) callee st.environment) (.leaves · next))

variable {stack : List PolicyId} {policy : String}

/-! ## References -/

/-- The three ways to go on after a reference, one for each outcome of the attempt to enter it. -/
theorem leads_enter (hcall : Callable t s d stack) {α : Type} {st : Running}
    (hst : Aligned stack policy st) (r : Reference)
    {waits : Policy → OnFlow} {absent refused : Control} {f : Entry → Evaluation α}
    {next : α → Control}
    (habsent : Leads t s d (.running (st.goto absent))
      (st.proceed (f .absent st.environment) next))
    (hrefused : ∀ notices, Leads t s d (.running { st with control := refused, notices })
      (Running.proceed { st with notices } (f .refused st.environment) next))
    (hran : ∀ id callee flow env notices,
      Leads t s d
        (.running { st with
          control := .leaves flow (waits callee), policy := callee.name, environment := env,
          callStack := st.callStack ++ [id], callDepth := st.callDepth + 1, notices })
        (Running.proceed { st with environment := env, notices }
          (f (.ran callee.name flow) env) next)) :
    Leads t s d (.running (enter t s st r waits absent refused))
      (st.proceed (((t.context s stack policy).visit r >>= f) st.environment) next) := by
  obtain ⟨rfl, rfl, hdepth⟩ := hst
  cases hlink : r.link with
  | none =>
    rw [enter, Context.visit, hlink, pure_bind]
    exact habsent
  | some id =>
    have hvisit : (t.context s st.callStack st.policy).visit r =
        t.enter s st.callStack st.policy id := by
      rw [Context.visit, hlink]
      rfl
    rw [hvisit, Table.enter, enter, hlink, Option.bind_some]
    cases hg : t.get? id with
    | none =>
      rw [Option.map_none, pure_bind]
      exact habsent
    | some callee =>
      have hdepth' : st.callStack.length - 1 = st.callDepth := by omega
      simp only [Option.map_some, hdepth']
      by_cases hcycle : id ∈ st.callStack
      · rw [if_pos hcycle, if_pos hcycle, bind_assoc, Running.proceed_report, pure_bind]
        exact hrefused _
      by_cases hlimit : s.maxCallDepth ≤ st.callDepth
      · rw [if_neg hcycle, if_neg hcycle, if_pos hlimit, if_pos hlimit, bind_assoc,
          Running.proceed_report, pure_bind]
        exact hrefused _
      rw [if_neg hcycle, if_neg hcycle, if_neg hlimit, if_neg hlimit, bind_assoc]
      -- the callee runs one place deeper, and `hran` takes over where control leaves it
      have hbelow : Aligned (st.callStack ++ [id]) callee.name
          { st with
            policy := callee.name, callStack := st.callStack ++ [id],
            callDepth := st.callDepth + 1 } :=
        ⟨rfl, rfl, by simp [hdepth]⟩
      have hrun := hcall id callee hg hcycle _ (waits callee) hbelow
      rcases hres : t.runPolicy s (st.callStack ++ [id]) callee st.environment with
        ⟨notices, e | ⟨flow, env⟩⟩
      · rw [hres] at hrun
        rw [Evaluation.bind_apply, hres]
        exact hrun
      · rw [hres] at hrun
        rw [Evaluation.bind_apply, hres]
        refine hrun.trans ?_
        have hnext := hran id callee flow env (st.notices ++ notices)
        simp only [Running.proceed, List.append_assoc, pure_bind] at hnext ⊢
        exact hnext

theorem leads_call (hcall : Callable t s d stack) {st : Running}
    (hst : Aligned stack policy st) (r : Reference) (next : OnFlow) :
    Leads t s d (.running (call t s st r next))
      (st.proceed ((t.context s stack policy).call r st.environment) (.leaves · next)) := by
  rw [Context.call]
  refine leads_enter hcall hst r (leads_pure st .fallsThrough _ _ (.leaves · next))
    (fun notices => leads_pure st (.exits .reject) _ notices (.leaves · next))
    fun id callee flow env notices => .next ?_
  simp only [step, takeFlow, Running.pop, List.dropLast_concat]
  cases flow <;> exact leads_pure st _ env notices (.leaves · next)

theorem leads_ask (hcall : Callable t s d stack) {st : Running}
    (hst : Aligned stack policy st) (r : Reference) (next : OnVerdict) :
    Leads t s d (.running (ask t s st r next))
      (st.proceed ((t.context s stack policy).ask r st.environment) (.gives · next)) := by
  rw [Context.ask, Evaluation.get_bind_apply]
  refine leads_enter hcall hst r (leads_pure st .unmatched _ _ (.gives · next))
    (fun notices => leads_pure st .unmatched _ notices (.gives · next))
    fun id callee flow env notices => .next ?_
  simp only [step, takeFlow, Running.pop, List.dropLast_concat, hst.policy_eq]
  exact .refl _

theorem leads_askFirst (hcall : Callable t s d stack) (rs : List Reference) {st : Running}
    (hst : Aligned stack policy st) (next : OnVerdict) :
    Leads t s d (.running (judgeNext t s st next (.firstMatch rs)))
      (st.proceed ((t.context s stack policy).askFirst rs st.environment) (.gives · next)) := by
  induction rs generalizing st with
  | nil => exact leads_pure st .unmatched _ _ (.gives · next)
  | cons r rs ih =>
    refine (leads_ask hcall hst r (.firstOf rs next)).bind fun v env notices => .next ?_
    simp only [step, takeVerdict]
    cases hv : v.isDefinite with
    | true => exact leads_pure st v env notices (.gives · next)
    | false => exact .next (ih (hst.moved _ _ _))

theorem leads_askAll (hcall : Callable t s d stack) (r : Reference) (rs : List Reference)
    {st : Running} (hst : Aligned stack policy st) (next : OnVerdict) :
    Leads t s d (.running (ask t s st r (.allOf rs next)))
      (st.proceed ((t.context s stack policy).askAll (r :: rs) st.environment)
        (fun b => .gives (.matched b) next)) := by
  induction rs generalizing r st with
  | nil =>
    refine (leads_ask hcall hst r (.allOf [] next)).bind fun v env notices => .next ?_
    simp only [step, takeVerdict]
    cases hv : v.isTrue with
    | true => exact leads_pure st true env notices (fun b => .gives (.matched b) next)
    | false => exact leads_pure st false env notices (fun b => .gives (.matched b) next)
  | cons r' rs ih =>
    refine (leads_ask hcall hst r (.allOf (r' :: rs) next)).bind fun v env notices => .next ?_
    simp only [step, takeVerdict]
    cases hv : v.isTrue with
    | true => exact .next (ih r' (hst.moved _ _ _))
    | false => exact leads_pure st false env notices (fun b => .gives (.matched b) next)

/-! ## Conditions and statements -/

theorem foldl_conjunction (vs : List Verdict) (value : Bool) :
    vs.foldl (withOperand true) value = (value && vs.all Verdict.isTrue) := by
  induction vs generalizing value with
  | nil => simp
  | cons v vs ih => rw [List.foldl_cons, ih, List.all_cons, ← Bool.and_assoc]; rfl

theorem foldl_disjunction (vs : List Verdict) (value : Bool) :
    vs.foldl (withOperand false) value = (value || vs.any Verdict.isTrue) := by
  induction vs generalizing value with
  | nil => simp
  | cons v vs ih => rw [List.foldl_cons, ih, List.any_cons, ← Bool.or_assoc]; rfl

mutual

theorem leads_judge (hcall : Callable t s d stack) : (c : Condition) → {st : Running} →
    Aligned stack policy st → (next : OnVerdict) →
    Leads t s d (.running (judgeNext t s st next c))
      (st.proceed (c.judge (t.context s stack policy) st.environment) (.gives · next))
  | .literal b, st, _, next => leads_pure st (.matched b) _ _ (.gives · next)
  | .test p, st, _, next =>
    leads_pure st (.matched (p.holds st.environment.route)) _ _ (.gives · next)
  | .not c, st, hst, next => by
    refine .next ((leads_judge hcall c (hst.moved _ _ _) (.negate next)).bind
      fun v env notices => .next ?_)
    exact leads_pure st (.matched (!v.isTrue)) env notices (.gives · next)
  | .all cs, st, hst, next => by
    rw [Condition.judge]
    have hvalue := leads_operands hcall cs hst true true next
    simp only [foldl_conjunction, Bool.true_and] at hvalue
    exact hvalue.map _
  | .any cs, st, hst, next => by
    rw [Condition.judge]
    have hvalue := leads_operands hcall cs hst false false next
    simp only [foldl_disjunction, Bool.false_or] at hvalue
    exact hvalue.map _
  | .firstMatch targets, st, hst, next => leads_askFirst hcall targets hst next
  | .allMatch [], st, _, next => leads_pure st (.matched false) _ _ (.gives · next)
  | .allMatch (r :: rs), st, hst, next => by
    have hjudge : (Condition.allMatch (r :: rs)).judge (t.context s stack policy) =
        ((t.context s stack policy).askAll (r :: rs) >>= fun b => pure (.matched b)) := by
      rw [Condition.judge]
      rfl
    rw [hjudge]
    exact (leads_askAll hcall r rs hst next).map _
  | .callPolicy target, st, hst, next => leads_ask hcall hst target next
  | .inCall, st, hst, next => by
    have hdepth : (t.context s stack policy).inCall = decide (0 < st.callDepth) := by
      have := hst.callDepth_eq
      simp only [Table.context, decide_eq_decide]
      omega
    rw [Condition.judge, hdepth]
    exact leads_pure st (.matched (0 < st.callDepth)) _ _ (.gives · next)

theorem leads_operands (hcall : Callable t s d stack) : (cs : List Condition) →
    {st : Running} → Aligned stack policy st → (neutral value : Bool) → (next : OnVerdict) →
    Leads t s d (.running (st.goto (nextOperand neutral value next cs)))
      (st.proceed (Condition.judgeEach (t.context s stack policy) cs st.environment) fun vs =>
        .gives (.matched (vs.foldl (withOperand neutral) value)) next)
  | [], st, _, neutral, value, next =>
    leads_pure st ([] : List Verdict) _ _ fun vs =>
      .gives (.matched (vs.foldl (withOperand neutral) value)) next
  | c :: cs, st, hst, neutral, value, next => by
    rw [Condition.judgeEach]
    refine .next ((leads_judge hcall c (hst.moved _ _ _) (.operands neutral value cs next)).bind
      fun v env notices => .next ?_)
    have hrest := leads_operands hcall cs (hst.moved st.control env notices) neutral
      (withOperand neutral value v) next
    exact hrest.map (v :: ·)

end

mutual

theorem leads_run (hcall : Callable t s d stack) : (statement : Statement) → {st : Running} →
    Aligned stack policy st → (next : OnFlow) →
    Leads t s d (runNext t s st next statement)
      (st.proceed (statement.run (t.context s stack policy) st.environment) (.leaves · next))
  | .branch guard a b, st, hst, next => by
    rw [Statement.run]
    refine .next ((leads_judge hcall guard (hst.moved _ _ _) (.branch a b next)).bind
      fun v env notices => .next ?_)
    simp only [step, takeVerdict]
    cases v.isTrue with
    | true => exact leads_runAll hcall a (hst.moved st.control env notices) next
    | false => exact leads_runAll hcall b (hst.moved st.control env notices) next
  | .write field update, st, hst, next => by
    rw [Statement.run, runNext, hst.policy_eq]
    have hwrite : Leads t s d _ (st.proceed (Evaluation.write policy field update st.environment)
        fun _ => .leaves .fallsThrough next) := .refl _
    exact hwrite.map fun _ => Flow.fallsThrough
  | .setDefaultPolicy target, st, hst, next => by
    rw [Statement.run]
    cases hlink : target.link with
    | none =>
      rw [runNext, hlink]
      exact leads_pure st .fallsThrough _ _ (.leaves · next)
    | some id =>
      rw [runNext, hlink]
      exact leads_pure st .fallsThrough _ _ (.leaves · next)
  | .call target, st, hst, next => leads_call hcall hst target next
  | .comment _, st, _, next => leads_pure st .fallsThrough _ _ (.leaves · next)
  | .control kind, st, _, next => .refl _

theorem leads_runAll (hcall : Callable t s d stack) : (ss : List Statement) → {st : Running} →
    Aligned stack policy st → (next : OnFlow) →
    Leads t s d (.running (st.goto (.runs ss next)))
      (st.proceed (Statement.runAll (t.context s stack policy) ss st.environment)
        (.leaves · next))
  | [], st, _, next => .next (leads_pure st .fallsThrough _ _ (.leaves · next))
  | statement :: ss, st, hst, next => by
    rw [Statement.runAll]
    refine .next ((leads_run hcall statement (hst.moved _ _ _) (.rest ss next)).bind
      fun flow env notices => .next ?_)
    simp only [step, takeFlow]
    cases flow with
    | fallsThrough => exact leads_runAll hcall ss (hst.moved st.control env notices) next
    | exits action => exact leads_pure st (.exits action) env notices (.leaves · next)
    | returns verdict => exact leads_pure st (.returns verdict) env notices (.leaves · next)

end

/-! ## Policies and top-level runs -/

/-- A policy that runs under a stack of callers. -/
theorem leads_runPolicy (stack : List PolicyId) (p : Policy) {st : Running}
    (hst : Aligned stack p.name st) (next : OnFlow) :
    Leads t s d (.running (st.goto (.runs p.statements next)))
      (st.proceed (t.runPolicy s stack p st.environment) (.leaves · next)) := by
  induction hn : t.unvisited stack using Nat.strongRecOn generalizing stack p st next with
  | ind n ih =>
    subst hn
    rw [Table.runPolicy_eq]
    refine leads_runAll (fun id callee hg hcycle st' next' hst' => ?_) p.statements hst next
    have hless := Table.unvisited_append_lt hcycle (Table.index_lt_of_get? hg)
    exact ih _ hless _ callee hst' next' rfl

/-- A top-level run and the default policies after it. -/
theorem leads_runFrom (visited : List PolicyId) (id : PolicyId) (p : Policy) (env : Environment)
    (notices : List Notice) :
    Leads t s d (.running (topLevel s d visited id p env notices))
      (.halted (notices ++ (t.runFrom s d visited id p env).1)
        (t.runFrom s d visited id p env).2) := by
  induction hn : t.unvisited visited using Nat.strongRecOn
    generalizing visited id p env notices with
  | ind n ih =>
    subst hn
    have hst : Aligned [id] p.name (topLevel s d visited id p env notices) := ⟨rfl, rfl, rfl⟩
    refine (leads_runPolicy [id] p hst .topLevel).trans ?_
    rw [Table.runFrom_eq]
    simp only [topLevel, Running.proceed]
    rcases t.runPolicy s [id] p (Table.freshen s d p.name env) with ⟨ran, e | ⟨flow, env'⟩⟩
    · simp only [List.append_assoc]
      exact .refl _
    refine .next ?_
    simp only [step, takeFlow]
    cases hend : t.ending visited env' flow with
    | decides action =>
      simp only [List.append_assoc]
      exact .refl _
    | repeats next =>
      simp only [List.append_assoc]
      exact .refl _
    | fallsTo next q =>
      obtain ⟨hv, hg⟩ := t.of_ending_fallsTo hend
      have hless := Table.unvisited_append_lt hv (Table.index_lt_of_get? hg)
      have hrest := ih _ hless (visited ++ [next]) next q env'
        (notices ++ Table.startNotices s d p.name ++ ran ++
          [.event (.fallingThrough p.name q.name)]) rfl
      simp only [List.append_assoc, List.singleton_append] at hrest ⊢
      exact hrest

/-! ## Whole evaluations -/

theorem Leads.exists_after {a b : State} (h : Leads t s d a b) {policy : String} {route : Route}
    {n : Nat} (hn : after t s d policy route n = a) : ∃ m, after t s d policy route m = b := by
  induction h generalizing n with
  | refl a => exact ⟨n, hn⟩
  | next _ ih =>
    refine ih (n := n + 1) ?_
    rw [after, hn]

/-- After some number of steps the machine halts with what the evaluation gives. -/
theorem exists_outcome?_after (policy : String) (route : Route) :
    ∃ n, (after t s d policy route n).outcome? = some (t.evaluate s policy route d) := by
  rw [Table.evaluate]
  cases hid : t.idOf? policy with
  | none =>
    refine ⟨0, ?_⟩
    rw [after, start, hid]
    rfl
  | some id =>
    cases hg : t.get? id with
    | none =>
      refine ⟨0, ?_⟩
      rw [after, start, hid]
      simp only [hg]
      rfl
    | some p =>
      have hstart : after t s d policy route 0 =
          .running (topLevel s d [id] id p (Table.startOf route) []) := by
        rw [after, start, hid]
        simp only [hg]
      obtain ⟨n, hn⟩ := (leads_runFrom [id] id p (Table.startOf route) []).exists_after hstart
      refine ⟨n, ?_⟩
      rw [hn, List.nil_append]
      simp only [hg]
      rfl

theorem outcome?_after_add {policy : String} {route : Route} {n : Nat}
    {x : List Notice × Except MalformedPolicy Decision}
    (h : (after t s d policy route n).outcome? = some x) (k : Nat) :
    (after t s d policy route (n + k)).outcome? = some x := by
  induction k with
  | zero => exact h
  | succ k ih =>
    rw [← Nat.add_assoc, after]
    cases hstate : after t s d policy route (n + k) with
    | running st =>
      rw [hstate] at ih
      cases ih
    | halted notices result =>
      rw [hstate] at ih
      exact ih

/-- What the machine halts with is what the evaluation gives. -/
theorem evaluate_of_outcome? {policy : String} {route : Route} {n : Nat}
    {x : List Notice × Except MalformedPolicy Decision}
    (h : (after t s d policy route n).outcome? = some x) : t.evaluate s policy route d = x := by
  obtain ⟨m, hm⟩ := exists_outcome?_after (t := t) (s := s) (d := d) policy route
  have hlater : (after t s d policy route (m + n)).outcome? = some x := by
    rw [Nat.add_comm]
    exact outcome?_after_add h m
  rw [outcome?_after_add hm n] at hlater
  exact Option.some.inj hlater

/-- The machine goes by structural recursion, so that evaluations on given inputs can be computed
with it. -/
theorem evaluate_of_halts {policy : String} {route : Route} (n : Nat)
    {result : Except MalformedPolicy Decision} {diagnostics : List Diagnostic}
    (h : (after t s d policy route n).outcome?.map (fun x => (x.2, diagnosticsOf x.1)) =
      some (result, diagnostics)) :
    (t.evaluate s policy route d).2 = result ∧
      diagnosticsOf (t.evaluate s policy route d).1 = diagnostics := by
  obtain ⟨x, hx, hparts⟩ := Option.map_eq_some_iff.mp h
  rw [evaluate_of_outcome? hx]
  exact Prod.mk.inj hparts

end

end Machine

end RoutePolicy
