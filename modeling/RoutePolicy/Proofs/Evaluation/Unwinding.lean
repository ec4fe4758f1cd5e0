import RoutePolicy.Proofs.Evaluation.Effect

/-!
# Leaving by an exit

Control that leaves by an exit passes everything that waits on its way, lists of statements as well
as policies that run in place, until it comes to a policy that runs for its verdict or to the top
level.  Nothing else happens on that way.

* `OnFlow.subEvaluation?` — the innermost policy that runs for its verdict;
* `Machine.LeadsThrough` — a run all of whose moments have a property;
* `Machine.unwinds_to_end`, `Machine.unwinds_to_verdict` — where an exit ends;
* `Machine.decides_of_exit`, `Machine.gives_of_exit` — what this is for the evaluation.
-/

set_option autoImplicit false

namespace RoutePolicy

/-- A policy that runs for its verdict: who asks for it, the default action and the default policy
that it gives back, and what waits for the verdict. -/
structure SubEvaluation where
  caller : String
  callee : String
  action : Action
  policy : Option PolicyId
  next : OnVerdict

/-- The innermost policy that runs for its verdict. -/
def OnFlow.subEvaluation? : OnFlow → Option SubEvaluation
  | .topLevel => none
  | .rest _ next => next.subEvaluation?
  | .called _ next => next.subEvaluation?
  | .asked caller callee action policy next => some ⟨caller, callee, action, policy, next⟩

namespace Machine

section

variable (t : Table) (s : Settings) (d : Direction)

/-- The machine goes from a state to another one, and all moments before that have a property. -/
inductive LeadsThrough (P : Running → Prop) : State → State → Prop where
  | refl (a : State) : LeadsThrough P a a
  | next {st : Running} {b : State} (hst : P st)
      (h : LeadsThrough P (step t s d (.running st)) b) : LeadsThrough P (.running st) b

end

/-- Control is on its way out by an exit, and since then nothing was written or reported. -/
structure Leaving (action : Action) (env : Environment) (notices : List Notice) (st : Running) :
    Prop where
  control_eq : ∃ next, st.control = .leaves (.exits action) next
  environment_eq : st.environment = env
  notices_eq : st.notices = notices

variable {t : Table} {s : Settings} {d : Direction}

theorem LeadsThrough.exists_after {P : Running → Prop} {a b : State}
    (h : LeadsThrough t s d P a b) {policy : String} {route : Route} {n : Nat}
    (hn : after t s d policy route n = a) :
    ∃ m, n ≤ m ∧ after t s d policy route m = b ∧
      ∀ i st, n ≤ i → i < m → after t s d policy route i = .running st → P st := by
  induction h generalizing n with
  | refl a => exact ⟨n, Nat.le_refl n, hn, fun i _ hle hlt => absurd hle (Nat.not_le_of_lt hlt)⟩
  | next hst _ ih =>
    obtain ⟨m, hle, hm, hbetween⟩ := ih (after_succ_of_running hn)
    refine ⟨m, Nat.le_of_succ_le hle, hm, fun i st hi hlt hafter => ?_⟩
    rcases Nat.eq_or_lt_of_le hi with rfl | hi
    · cases hn.symm.trans hafter
      exact hst
    · exact hbetween i st hi hlt hafter

/-- Where no policy runs for its verdict, an exit ends the evaluation. -/
theorem unwinds_to_end {action : Action} : (next : OnFlow) → next.subEvaluation? = none →
    (st : Running) → st.control = .leaves (.exits action) next →
    ∃ policy, LeadsThrough t s d (Leaving action st.environment st.notices) (.running st)
      (.halted (st.notices ++ (Table.finish d policy action st.environment).1)
        (.ok ⟨action, st.environment⟩))
  | .topLevel, _, st, hcontrol => by
    refine ⟨st.policy, .next ⟨⟨_, hcontrol⟩, rfl, rfl⟩ ?_⟩
    rw [step, hcontrol]
    exact .refl _
  | .rest ss next, hnone, st, hcontrol => by
    obtain ⟨policy, hleads⟩ :=
      unwinds_to_end next hnone (st.goto (.leaves (.exits action) next)) rfl
    refine ⟨policy, .next ⟨⟨_, hcontrol⟩, rfl, rfl⟩ ?_⟩
    rw [step, hcontrol]
    exact hleads
  | .called caller next, hnone, st, hcontrol => by
    obtain ⟨policy, hleads⟩ :=
      unwinds_to_end next hnone ((st.pop caller).goto (.leaves (.exits action) next)) rfl
    refine ⟨policy, .next ⟨⟨_, hcontrol⟩, rfl, rfl⟩ ?_⟩
    rw [step, hcontrol]
    exact hleads
  | .asked _ _ _ _ _, hnone, _, _ => nomatch hnone

/-- Otherwise it is the verdict of the innermost policy that runs for one, and the default action
and the default policy are again those from before that policy ran. -/
theorem unwinds_to_verdict {action : Action} {sub : SubEvaluation} : (next : OnFlow) →
    next.subEvaluation? = some sub →
    (st : Running) → st.control = .leaves (.exits action) next →
    ∃ st', LeadsThrough t s d (Leaving action st.environment st.notices) (.running st)
        (.running st') ∧
      st'.control = .gives (Flow.exits action).verdict sub.next ∧
      st'.environment =
        { st.environment with defaultAction := sub.action, defaultPolicy := sub.policy } ∧
      st'.notices = st.notices ++
        [.event (.callEvaluated sub.caller sub.callee (Flow.exits action).verdict)]
  | .topLevel, hsome, _, _ => nomatch hsome
  | .rest ss next, hsome, st, hcontrol => by
    obtain ⟨st', hleads, hst'⟩ :=
      unwinds_to_verdict next hsome (st.goto (.leaves (.exits action) next)) rfl
    refine ⟨st', .next ⟨⟨_, hcontrol⟩, rfl, rfl⟩ ?_, hst'⟩
    rw [step, hcontrol]
    exact hleads
  | .called caller next, hsome, st, hcontrol => by
    obtain ⟨st', hleads, hst'⟩ :=
      unwinds_to_verdict next hsome ((st.pop caller).goto (.leaves (.exits action) next)) rfl
    refine ⟨st', .next ⟨⟨_, hcontrol⟩, rfl, rfl⟩ ?_, hst'⟩
    rw [step, hcontrol]
    exact hleads
  | .asked caller callee before policy next, hsome, st, hcontrol => by
    cases hsome
    refine ⟨{ (st.pop caller).goto (.gives (Flow.exits action).verdict next) with
      environment := { st.environment with defaultAction := before, defaultPolicy := policy }
      notices := st.notices ++
        [.event (.callEvaluated caller callee (Flow.exits action).verdict)] },
      .next ⟨⟨_, hcontrol⟩, rfl, rfl⟩ ?_, rfl, rfl, rfl⟩
    rw [step, hcontrol]
    exact .refl _

/-! ## Whole evaluations -/

section

variable {policy : String} {route : Route} {n : Nat} {st : Running} {action : Action}
  {next : OnFlow}

/-- An exit where no policy runs for its verdict decides the evaluation, and nothing is run, written
or found fault with after it. -/
theorem decides_of_exit (hafter : after t s d policy route n = .running st)
    (hcontrol : st.control = .leaves (.exits action) next) (hnone : next.subEvaluation? = none) :
    (t.evaluate s policy route d).2 = .ok ⟨action, st.environment.overlay⟩ ∧
      diagnosticsOf (t.evaluate s policy route d).1 = diagnosticsOf st.notices ∧
      ∀ m st', n ≤ m → after t s d policy route m = .running st' →
        Leaving action st.environment st.notices st' := by
  obtain ⟨name, hleads⟩ := unwinds_to_end (t := t) (s := s) (d := d) next hnone st hcontrol
  obtain ⟨m, -, hm, hbetween⟩ := hleads.exists_after hafter
  rw [evaluate_of_halted hm]
  refine ⟨rfl, ?_, fun i st' hi hst' => ?_⟩
  · rw [diagnosticsOf_append, Table.diagnosticsOf_finish, List.append_nil]
  · rcases Nat.lt_or_ge i m with hlt | hge
    · exact hbetween i st' hi hlt hst'
    · cases (after_of_halted hm hge).symm.trans hst'

/-- Any other exit is the verdict of the innermost policy that runs for one, and nothing is run,
written or found fault with before that. -/
theorem gives_of_exit {sub : SubEvaluation} (hafter : after t s d policy route n = .running st)
    (hcontrol : st.control = .leaves (.exits action) next)
    (hsome : next.subEvaluation? = some sub) :
    ∃ m st', n ≤ m ∧ after t s d policy route m = .running st' ∧
      st'.control = .gives (Flow.exits action).verdict sub.next ∧
      st'.environment =
        { st.environment with defaultAction := sub.action, defaultPolicy := sub.policy } ∧
      diagnosticsOf st'.notices = diagnosticsOf st.notices ∧
      ∀ i st'', n ≤ i → i < m → after t s d policy route i = .running st'' →
        Leaving action st.environment st.notices st'' := by
  obtain ⟨st', hleads, hcontrol', henvironment, hnotices⟩ :=
    unwinds_to_verdict (t := t) (s := s) (d := d) next hsome st hcontrol
  obtain ⟨m, hle, hm, hbetween⟩ := hleads.exists_after hafter
  refine ⟨m, st', hle, hm, hcontrol', henvironment, ?_, hbetween⟩
  rw [hnotices, diagnosticsOf_append]
  exact List.append_nil _

end

end Machine

end RoutePolicy
