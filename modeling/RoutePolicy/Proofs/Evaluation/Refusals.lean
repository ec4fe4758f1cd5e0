import RoutePolicy.Proofs.Evaluation.Attempts
import RoutePolicy.Proofs.Evaluation.Unwinding

/-!
# Refused calls fail closed

A call that is refused does what an exit with a rejection would do in its place: it rejects the
route, or it is the negative verdict of the innermost policy that runs for one.  A policy that is
asked for its verdict and refused gives none, and a default policy that had its run before rejects
the route.  So where no condition runs a policy, the first thing that an evaluation finds fault
with is the last one, and rejects the route.

* `Machine.step_of_refused_call`, `Machine.after_of_refused_call` — refused calls;
* `Machine.rejects_of_repeats` — default policies that had their run;
* `Evaluation.FailsClosed` — at most one diagnostic, and with one a rejection;
* `Table.evaluate_failsClosed` — all of this for whole evaluations.
-/

set_option autoImplicit false

namespace RoutePolicy

/-! ## Refused calls -/

namespace Machine

variable {t : Table} {s : Settings} {d : Direction} {policy : String} {route : Route} {n : Nat}
  {st : Running} {notices : List Notice}

/-- A refused call goes on like an exit with a rejection in its place. -/
theorem step_of_refused_call {target : Reference} {ss : List Statement} {next : OnFlow}
    (hcontrol : st.control = .runs (.call target :: ss) next)
    (hrefusal : Refusal t s st target notices) :
    step t s d (.running st) = step t s d (.running { st with
      control := .runs (.control .exitReject :: ss) next, notices := st.notices ++ notices }) := by
  rw [step_of_refusal (attempt?_of_call hcontrol) hrefusal]
  simp only [step, runNext, Control.run, Running.proceed, Evaluation.pure_apply, List.append_nil]
  rfl

theorem after_of_refused_call {target : Reference} {ss : List Statement} {next : OnFlow}
    (hafter : after t s d policy route n = .running st)
    (hcontrol : st.control = .runs (.call target :: ss) next)
    (hrefusal : Refusal t s st target notices) :
    after t s d policy route (n + 1) = .running { st with
      control := .leaves (.exits .reject) (.rest ss next), notices := st.notices ++ notices } :=
  (after_succ_of_running hafter).trans (step_of_refusal (attempt?_of_call hcontrol) hrefusal)

/-- A default policy that had its run before decides the evaluation. -/
theorem rejects_of_repeats {flow : Flow} {id : PolicyId}
    (hafter : after t s d policy route n = .running st)
    (hcontrol : st.control = .leaves flow .topLevel) (hflow : ∀ action, flow ≠ .exits action)
    (hdefault : st.environment.defaultPolicy = some id) (hvisited : id ∈ st.visited) :
    (t.evaluate s policy route d).2 = .ok ⟨.reject, st.environment.overlay⟩ ∧
      diagnosticsOf (t.evaluate s policy route d).1 =
        diagnosticsOf (st.notices ++ t.cycleNotices st.policy (st.visited ++ [id])) := by
  have hending : t.ending st.visited st.environment flow = .repeats id := by
    cases flow with
    | exits action => exact absurd rfl (hflow action)
    | _ => simp only [Table.ending, hdefault, if_pos hvisited]
  have hhalted := after_succ_of_running hafter
  rw [step, hcontrol] at hhalted
  simp only [takeFlow, hending] at hhalted
  rw [evaluate_of_halted hhalted]
  refine ⟨rfl, ?_⟩
  rw [diagnosticsOf_append, Table.diagnosticsOf_finish, List.append_nil]

end Machine

/-! ## Programs that ask no policies -/

namespace Statement

mutual

/-- Whether a condition in the statement can run a policy. -/
def asks : Statement → Bool
  | .branch guard a b => guard.invokesPolicies || asksAny a || asksAny b
  | .write _ _ | .setDefaultPolicy _ | .call _ | .comment _ | .control _ => false

/-- Whether a condition in one of the statements can run a policy. -/
def asksAny : List Statement → Bool
  | [] => false
  | s :: ss => asks s || asksAny ss

end

end Statement

namespace Evaluation

variable {α : Type}

/-- There is nothing to find fault with, or one thing and control leaves with a rejection. -/
def FailsClosed (x : Evaluation Flow) : Prop := ∀ env,
  diagnosticsOf (x env).notices = [] ∨
    (diagnosticsOf (x env).notices).length = 1 ∧
      ∃ env', (x env).result = .ok (.exits .reject, env')

theorem FailsClosed.of_quiet {x : Evaluation Flow}
    (h : ∀ env, diagnosticsOf (x env).notices = []) : FailsClosed x := fun env => .inl (h env)

theorem FailsClosed.pure (flow : Flow) : FailsClosed (pure flow) := .of_quiet fun _ => rfl

theorem FailsClosed.of_silent {x : Evaluation α} {f : α → Evaluation Flow} (hx : Silent x)
    (hf : ∀ a, FailsClosed (f a)) : FailsClosed (x >>= f) := by
  intro env
  obtain ⟨a, ha⟩ := hx env
  rw [bind_apply, ha]
  exact hf a env

/-- Where something is found fault with, what comes next has to keep the rejection. -/
theorem FailsClosed.bind {x : Evaluation Flow} {f : Flow → Evaluation Flow} (hx : FailsClosed x)
    (hreject : f (.exits .reject) = Pure.pure (.exits .reject))
    (hf : ∀ flow, FailsClosed (f flow)) : FailsClosed (x >>= f) := by
  intro env
  rw [bind_apply]
  rcases hx env with hnone | ⟨hone, env', hresult⟩
  · rcases hrun : x env with ⟨notices, e | ⟨flow, env'⟩⟩
    · rw [hrun] at hnone
      exact .inl hnone
    · rw [hrun] at hnone
      simp only [diagnosticsOf_append, hnone, List.nil_append]
      exact hf flow env'
  · rcases hrun : x env with ⟨notices, result⟩
    rw [hrun] at hone hresult
    cases hresult
    simp only [hreject, pure_apply, List.append_nil]
    exact .inr ⟨hone, env', rfl⟩

theorem FailsClosed.thenIf {x y : Evaluation Flow} (hx : FailsClosed x) (hy : FailsClosed y) :
    FailsClosed (x.thenIf .fallsThrough y) := by
  refine hx.bind rfl fun flow => ?_
  split
  · exact hy
  · exact .pure flow

/-- One thing is found fault with, and control leaves with a rejection. -/
theorem FailsClosed.report {notices : List Notice} (h : (diagnosticsOf notices).length = 1) :
    FailsClosed (report notices >>= fun _ => Pure.pure (.exits .reject)) := by
  intro env
  refine .inr ⟨?_, env, rfl⟩
  rw [bind_apply]
  simp only [Evaluation.report, pure_apply, List.append_nil]
  exact h

end Evaluation

namespace Statement

open Evaluation (FailsClosed)

variable {ctx : Context}

mutual

theorem failsClosed_run (hcall : ∀ r, FailsClosed (ctx.call r)) : (statement : Statement) →
    statement.asks = false → FailsClosed (run ctx statement)
  | .branch guard a b, h => by
    rw [asks, Bool.or_eq_false_iff, Bool.or_eq_false_iff] at h
    rw [run]
    refine .of_silent (guard.silent_judge ctx h.1.1) fun v => ?_
    split
    · exact failsClosed_runAll hcall a h.1.2
    · exact failsClosed_runAll hcall b h.2
  | .write field update, _ => by
    rw [run]
    refine .of_quiet fun env => ?_
    rw [Evaluation.bind_apply]
    have hquiet := Machine.notices_write ctx.policy field update env
    rcases hwrite : Evaluation.write ctx.policy field update env with ⟨notices, e | ⟨u, env'⟩⟩ <;>
      rw [hwrite] at hquiet <;> cases hquiet <;> rfl
  | .setDefaultPolicy target, _ => by
    rw [run]
    cases target.link <;> exact .of_quiet fun _ => rfl
  | .call target, _ => by
    rw [run]
    exact hcall target
  | .comment _, _ => by
    rw [run]
    exact .pure _
  | .control kind, _ => by
    rw [run]
    refine .of_quiet fun env => ?_
    rw [Machine.notices_control]
    rfl

theorem failsClosed_runAll (hcall : ∀ r, FailsClosed (ctx.call r)) : (ss : List Statement) →
    asksAny ss = false → FailsClosed (runAll ctx ss)
  | [], _ => by
    rw [runAll_nil]
    exact .pure _
  | statement :: ss, h => by
    rw [asksAny, Bool.or_eq_false_iff] at h
    rw [runAll_cons]
    exact (failsClosed_run hcall statement h.1).thenIf (failsClosed_runAll hcall ss h.2)

end

end Statement

namespace Table

open Evaluation (FailsClosed)

variable {t : Table} {s : Settings}

/-- A call fails closed when the policies that it may enter do. -/
theorem failsClosed_call {stack : List PolicyId} (policy : String)
    (hrun : ∀ id callee, t.get? id = some callee → id ∉ stack →
      FailsClosed (t.runPolicy s (stack ++ [id]) callee)) (r : Reference) :
    FailsClosed ((t.context s stack policy).call r) := by
  cases hlink : r.link with
  | none =>
    rw [Context.call, Context.visit, hlink, Evaluation.pure_bind]
    exact .pure _
  | some id =>
    have hvisit : (t.context s stack policy).visit r = t.enter s stack policy id := by
      rw [Context.visit, hlink]
      rfl
    rw [Context.call, hvisit, enter]
    cases hg : t.get? id with
    | none =>
      simp only [Evaluation.pure_bind]
      exact .pure _
    | some callee =>
      simp only
      by_cases hruns : id ∈ stack
      · rw [if_pos hruns, Evaluation.bind_assoc]
        exact .report rfl
      by_cases hdeep : s.maxCallDepth ≤ stack.length - 1
      · rw [if_neg hruns, if_pos hdeep, Evaluation.bind_assoc]
        exact .report rfl
      rw [if_neg hruns, if_neg hdeep, Evaluation.bind_assoc]
      refine (hrun id callee hg hruns).bind rfl fun flow => ?_
      cases flow <;> exact .pure _

variable (hasks : ∀ p ∈ t.policies, Statement.asksAny p.statements = false)

include hasks

theorem failsClosed_runPolicy (stack : List PolicyId) {id : PolicyId} {p : Policy}
    (hp : t.get? id = some p) : FailsClosed (t.runPolicy s stack p) := by
  induction hn : t.unvisited stack using Nat.strongRecOn generalizing stack id p with
  | ind n ih =>
    subst hn
    rw [runPolicy_eq]
    refine Statement.failsClosed_runAll (fun r => ?_) p.statements
      (hasks p (List.mem_of_getElem? hp))
    refine failsClosed_call p.name (fun id' callee hg hfresh => ?_) r
    exact ih _ (unvisited_append_lt hfresh (index_lt_of_get? hg)) _ hg rfl

theorem failsClosed_runFrom (d : Direction) (visited : List PolicyId) {id : PolicyId} {p : Policy}
    (hp : t.get? id = some p) (env : Environment) :
    diagnosticsOf (t.runFrom s d visited id p env).1 = [] ∨
      (diagnosticsOf (t.runFrom s d visited id p env).1).length = 1 ∧
        ∃ env', (t.runFrom s d visited id p env).2 = .ok ⟨.reject, env'⟩ := by
  induction hn : t.unvisited visited using Nat.strongRecOn generalizing visited id p env with
  | ind n ih =>
    subst hn
    have hrun := failsClosed_runPolicy (s := s) hasks [id] hp (freshen s d p.name env)
    rcases hresult : t.runPolicy s [id] p (freshen s d p.name env) with
      ⟨ran, e | ⟨flow, env'⟩⟩
    · rw [hresult] at hrun
      rcases hrun with hnone | ⟨-, env', hreject⟩
      · have hran : diagnosticsOf ran = [] := hnone
        rw [runFrom_eq, hresult]
        refine .inl ?_
        rw [diagnosticsOf_append, diagnosticsOf_startNotices, hran, List.append_nil]
      · cases hreject
    · rw [hresult] at hrun
      rcases hrun with hnone | ⟨hone, env'', hreject⟩
      · have hran : diagnosticsOf ran = [] := hnone
        cases hending : t.ending visited env' flow with
        | decides action =>
          obtain ⟨-, hdiagnostics⟩ := runFrom_decides hresult hending
          exact .inl (hdiagnostics.trans hran)
        | repeats next =>
          obtain ⟨hreject, hdiagnostics⟩ := runFrom_repeats hresult hending
          rw [hdiagnostics, hran, List.nil_append]
          exact .inr ⟨rfl, env', hreject⟩
        | fallsTo next q =>
          obtain ⟨hfresh, hg⟩ := t.of_ending_fallsTo hending
          obtain ⟨hcompletion, hdiagnostics⟩ := runFrom_fallsTo hresult hending
          rw [hcompletion, hdiagnostics, hran, List.nil_append]
          exact ih _ (unvisited_append_lt hfresh (index_lt_of_get? hg)) _ hg env' rfl
      · -- what is found fault with in the run has decided it
        cases hreject
        have hending : t.ending visited env' (.exits .reject) = .decides .reject := rfl
        obtain ⟨hcompletion, hdiagnostics⟩ := runFrom_decides hresult hending
        rw [hcompletion, hdiagnostics]
        exact .inr ⟨hone, env', rfl⟩

/-- Where no condition runs a policy, an evaluation finds fault with at most one thing, and then it
rejects the route. -/
theorem diagnosticsOf_evaluate (policy : String) (route : Route) (d : Direction) :
    (diagnosticsOf (t.evaluate s policy route d).1).length ≤ 1 ∧
      (diagnosticsOf (t.evaluate s policy route d).1 ≠ [] →
        ∃ overlay, (t.evaluate s policy route d).2 = .ok ⟨.reject, overlay⟩) := by
  unfold evaluate
  cases hid : t.idOf? policy with
  | none => exact ⟨Nat.le_refl 1, fun _ => ⟨_, rfl⟩⟩
  | some id =>
    cases hg : t.get? id with
    | none =>
      simp only [hg]
      exact ⟨Nat.zero_le 1, fun h => absurd rfl h⟩
    | some p =>
      simp only [hg]
      rcases failsClosed_runFrom (s := s) hasks d [id] hg (startOf route) with
        hnone | ⟨hone, env', hreject⟩
      · exact ⟨by rw [hnone]; exact Nat.zero_le 1, fun h => absurd hnone h⟩
      · exact ⟨Nat.le_of_eq hone, fun _ => ⟨env'.overlay, by rw [hreject]; rfl⟩⟩

end Table

/-- **Refused calls fail closed.**  A call that is refused goes on like an exit with a rejection in
its place.  Where no policy runs for its verdict this decides the evaluation, and no statement,
write or diagnostic comes after it; otherwise the innermost such policy gives a negative verdict,
and none comes before that.  A policy that is refused when it is asked, alone or in a chain, gives
no verdict, and nothing but the notices changes.  A default policy that had its run before rejects
the route.  On tables whose conditions run no policies there is at most one diagnostic, and with it
a rejection. -/
theorem Table.evaluate_failsClosed (t : Table) (s : Settings) (policy : String) (route : Route)
    (d : Direction) :
    (∀ n st target ss next notices, Machine.after t s d policy route n = .running st →
      st.control = .runs (.call target :: ss) next →
      Machine.Refusal t s st target notices →
      Machine.step t s d (.running st) = Machine.step t s d (.running { st with
        control := .runs (.control .exitReject :: ss) next
        notices := st.notices ++ notices }) ∧
      (next.subEvaluation? = none →
        (t.evaluate s policy route d).2 = .ok ⟨.reject, st.environment.overlay⟩ ∧
        diagnosticsOf (t.evaluate s policy route d).1 = diagnosticsOf (st.notices ++ notices) ∧
        ∀ m st', n < m → Machine.after t s d policy route m = .running st' →
          Machine.Leaving .reject st.environment (st.notices ++ notices) st') ∧
      (∀ sub, next.subEvaluation? = some sub →
        ∃ m st', n < m ∧ Machine.after t s d policy route m = .running st' ∧
          st'.control = .gives (.matched false) sub.next ∧
          st'.environment =
            { st.environment with defaultAction := sub.action, defaultPolicy := sub.policy } ∧
          diagnosticsOf st'.notices = diagnosticsOf (st.notices ++ notices) ∧
          ∀ i st'', n < i → i < m → Machine.after t s d policy route i = .running st'' →
            Machine.Leaving .reject st.environment (st.notices ++ notices) st'')) ∧
    (∀ n st target next notices, Machine.after t s d policy route n = .running st →
      st.attempt? = some (.forVerdict target next) → Machine.Refusal t s st target notices →
      Machine.after t s d policy route (n + 1) = .running { st with
        control := .gives .unmatched next
        notices := st.notices ++ notices }) ∧
    (∀ n st flow id, Machine.after t s d policy route n = .running st →
      st.control = .leaves flow .topLevel → (∀ action, flow ≠ .exits action) →
      st.environment.defaultPolicy = some id → id ∈ st.visited →
      (t.evaluate s policy route d).2 = .ok ⟨.reject, st.environment.overlay⟩ ∧
      diagnosticsOf (t.evaluate s policy route d).1 =
        diagnosticsOf (st.notices ++ t.cycleNotices st.policy (st.visited ++ [id]))) ∧
    ((∀ p ∈ t.policies, Statement.asksAny p.statements = false) →
      (diagnosticsOf (t.evaluate s policy route d).1).length ≤ 1 ∧
      (diagnosticsOf (t.evaluate s policy route d).1 ≠ [] →
        ∃ overlay, (t.evaluate s policy route d).2 = .ok ⟨.reject, overlay⟩)) := by
  refine ⟨fun n st target ss next notices hafter hcontrol hrefusal => ⟨?_, fun hnone => ?_,
    fun sub hsome => ?_⟩, fun n st target next notices hafter hattempt hrefusal => ?_,
    fun n st flow id hafter hcontrol hflow hdefault hvisited => ?_, fun hasks => ?_⟩
  · exact Machine.step_of_refused_call hcontrol hrefusal
  · exact Machine.decides_of_exit (Machine.after_of_refused_call hafter hcontrol hrefusal) rfl hnone
  · exact Machine.gives_of_exit (Machine.after_of_refused_call hafter hcontrol hrefusal) rfl hsome
  · exact (Machine.after_succ_of_running hafter).trans (Machine.step_of_refusal hattempt hrefusal)
  · exact Machine.rejects_of_repeats hafter hcontrol hflow hdefault hvisited
  · exact diagnosticsOf_evaluate hasks policy route d

/-- A policy that calls itself rejects; asked for its verdict, it gives a negative one. -/
example :
    let t : Table :=
      { policies := [
          { name := "a"
            statements := [
              .branch (.not (.callPolicy { name := "b", link := some ⟨1⟩ }))
                [.control .exitAccept] []] },
          { name := "b", statements := [.call { name := "b", link := some ⟨1⟩ }] }]
        ascending := by decide }
    (Machine.after t {} .inbound "b" {} 9).outcome?.map (fun o => o.2.toOption.map (·.result)) =
        some (some .reject) ∧
      (Machine.after t {} .inbound "a" {} 12).outcome?.map
        (fun o => o.2.toOption.map (·.result)) = some (some .accept) := by
  decide

end RoutePolicy
