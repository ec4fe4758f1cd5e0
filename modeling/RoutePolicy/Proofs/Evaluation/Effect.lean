import RoutePolicy.Proofs.Evaluation.Adequacy

/-!
# What a step does to the route

Of all that a step of the machine can do, only a write changes the route and the overlay, and only
a write can fail.  The end of an evaluation hands over the environment that it finds.

* `Machine.Effect`, `Machine.effect_step` — these possibilities, and that there are no others;
* `Machine.invariant_after` — what holds at the start and is kept by every step holds at every
  moment;
* `Machine.exists_last` — the moment before the end;
* `Machine.exists_halted`, `Machine.evaluate_of_halted` — the end of an evaluation is its result.
-/

set_option autoImplicit false

namespace RoutePolicy

namespace Machine

variable (t : Table) (s : Settings) (d : Direction)

/-- All that a step can do to the route and to the overlay: it leaves them alone, it makes a write,
it ends the evaluation with the environment as it is, or a write fails. -/
inductive Effect (st : Running) : State → Prop where
  | keeps (st' : Running) (route_eq : st'.environment.route = st.environment.route)
      (overlay_eq : st'.environment.overlay = st.environment.overlay) :
      Effect st (.running st')
  | writes (st' : Running) (field : RouteField) (update : Update) (ss : List Statement)
      (next : OnFlow) (control_eq : st.control = .runs (.write field update :: ss) next)
      (write_eq : (Evaluation.write st.policy field update st.environment).result =
        .ok ((), st'.environment)) :
      Effect st (.running st')
  | decides (notices : List Notice) (action : Action) :
      Effect st (.halted notices (.ok ⟨action, st.environment⟩))
  | fails (notices : List Notice) (e : MalformedPolicy) (field : RouteField) (update : Update)
      (ss : List Statement) (next : OnFlow)
      (control_eq : st.control = .runs (.write field update :: ss) next)
      (write_eq : (Evaluation.write st.policy field update st.environment).result = .error e) :
      Effect st (.halted notices (.error e))

variable {t s d}

theorem effect_enter (st : Running) (r : Reference) (waits : Policy → OnFlow)
    (absent refused : Control) : Effect st (.running (enter t s st r waits absent refused)) := by
  have hentered := entered_enter t s st r waits absent refused
  generalize enter t s st r waits absent refused = st' at hentered ⊢
  cases hentered <;> exact .keeps _ rfl rfl

theorem effect_write (st : Running) (field : RouteField) (update : Update) (ss : List Statement)
    (next : OnFlow) (hcontrol : st.control = .runs (.write field update :: ss) next) :
    Effect st (runNext t s st (.rest ss next) (.write field update)) := by
  have hproceed : runNext t s st (.rest ss next) (.write field update) =
      st.proceed (Evaluation.write st.policy field update st.environment) fun _ =>
        .leaves .fallsThrough (.rest ss next) := rfl
  rw [hproceed]
  rcases hwrite : Evaluation.write st.policy field update st.environment with
    ⟨notices, e | ⟨u, env⟩⟩
  · exact .fails _ e field update ss next hcontrol (by rw [hwrite])
  · exact .writes _ field update ss next hcontrol (by rw [hwrite])

theorem effect_control (st : Running) (kind : RoutePolicy.Control) (next : OnFlow) :
    Effect st (st.proceed (kind.run st.environment) (.leaves · next)) := by
  cases kind <;> exact .keeps _ rfl rfl

theorem effect_runNext (st : Running) (statement : Statement) (ss : List Statement)
    (next : OnFlow) (hcontrol : st.control = .runs (statement :: ss) next) :
    Effect st (runNext t s st (.rest ss next) statement) := by
  cases statement with
  | branch guard a b => exact .keeps _ rfl rfl
  | write field update => exact effect_write st field update ss next hcontrol
  | setDefaultPolicy target =>
    cases hlink : target.link with
    | none =>
      rw [runNext, hlink]
      exact .keeps _ rfl rfl
    | some id =>
      rw [runNext, hlink]
      exact .keeps _ rfl rfl
  | call target => exact effect_enter st target _ _ _
  | comment text => exact .keeps _ rfl rfl
  | control kind => exact effect_control st kind _

theorem effect_judgeNext (st : Running) (next : OnVerdict) (c : Condition) :
    Effect st (.running (judgeNext t s st next c)) := by
  cases c with
  | firstMatch targets =>
    cases targets with
    | nil => exact .keeps _ rfl rfl
    | cons r rs => exact effect_enter st r _ _ _
  | allMatch targets =>
    cases targets with
    | nil => exact .keeps _ rfl rfl
    | cons r rs => exact effect_enter st r _ _ _
  | callPolicy target => exact effect_enter st target _ _ _
  | _ => exact .keeps _ rfl rfl

theorem effect_takeFlow (st : Running) (flow : Flow) (next : OnFlow) :
    Effect st (takeFlow t s d st flow next) := by
  cases next with
  | rest ss next => exact .keeps _ rfl rfl
  | called caller next => exact .keeps _ rfl rfl
  | asked caller callee action policy next => exact .keeps _ rfl rfl
  | topLevel =>
    unfold takeFlow
    simp only
    split
    · exact .decides _ _
    · exact .decides _ _
    · exact .keeps _ rfl rfl

/-- Every step has one of the effects. -/
theorem effect_step (st : Running) : Effect st (step t s d (.running st)) := by
  rw [step]
  cases hcontrol : st.control with
  | runs ss next =>
    cases ss with
    | nil => exact .keeps _ rfl rfl
    | cons statement ss => exact effect_runNext st statement ss next hcontrol
  | judges c next => exact effect_judgeNext st next c
  | leaves flow next => exact effect_takeFlow st flow next
  | gives v next => exact .keeps _ rfl rfl

/-! ## Runs -/

variable {policy : String} {route : Route}

/-- What holds of the start of a first top-level run, and is kept by every step, holds at every
moment. -/
theorem invariant_after {P : Running → Prop}
    (hstart : ∀ id p, t.get? id = some p →
      P (topLevel s d [id] id p (Table.startOf route) []))
    (hstep : ∀ st st', P st → step t s d (.running st) = .running st' → P st')
    (n : Nat) {st : Running} (h : after t s d policy route n = .running st) : P st := by
  induction n generalizing st with
  | zero =>
    rw [after, start] at h
    split at h
    · cases h
    · split at h
      · cases h
      · rename_i p hg
        cases h
        exact hstart _ p hg
  | succ n ih =>
    rw [after] at h
    cases hprevious : after t s d policy route n with
    | halted notices result =>
      rw [hprevious] at h
      cases h
    | running st' =>
      rw [hprevious] at h
      exact hstep st' st (ih hprevious) h

/-- An evaluation that is over was over from the start or came to its end by a last step. -/
theorem halted_at_start_or_last {n : Nat} {notices : List Notice}
    {result : Except MalformedPolicy Table.Completion}
    (h : after t s d policy route n = .halted notices result) :
    start t s d policy route = .halted notices result ∨
      ∃ m st, after t s d policy route m = .running st ∧
        step t s d (.running st) = .halted notices result := by
  induction n with
  | zero => exact .inl h
  | succ n ih =>
    rw [after] at h
    cases hprevious : after t s d policy route n with
    | halted notices' result' =>
      rw [hprevious] at h
      exact ih (hprevious.trans h)
    | running st =>
      rw [hprevious] at h
      exact .inr ⟨n, st, hprevious, h⟩

/-- What is over from the start rejects the route, since there is no policy of the name. -/
theorem result_of_start_halted {notices : List Notice}
    {result : Except MalformedPolicy Table.Completion}
    (h : start t s d policy route = .halted notices result) :
    result = .ok ⟨.reject, Table.startOf route⟩ := by
  rw [start] at h
  split at h
  · cases h
    rfl
  · split at h
    · cases h
      rfl
    · cases h

/-- The end of an evaluation rejects the route, when there is no policy of the name, or is a last
step. -/
theorem exists_last {n : Nat} {notices : List Notice}
    {result : Except MalformedPolicy Table.Completion}
    (h : after t s d policy route n = .halted notices result) :
    result = .ok ⟨.reject, Table.startOf route⟩ ∨
      ∃ m st, after t s d policy route m = .running st ∧
        step t s d (.running st) = .halted notices result :=
  (halted_at_start_or_last h).imp_left result_of_start_halted

/-- The machine halts, and what it halts with is the result of the evaluation. -/
theorem exists_halted (t : Table) (s : Settings) (d : Direction) (policy : String)
    (route : Route) :
    ∃ n notices result, after t s d policy route n = .halted notices result ∧
      t.evaluate s policy route d =
        (notices, result.map fun c => ⟨c.action, c.environment.overlay⟩) := by
  obtain ⟨n, hn⟩ := exists_outcome?_after (t := t) (s := s) (d := d) policy route
  cases hafter : after t s d policy route n with
  | running st =>
    rw [hafter] at hn
    cases hn
  | halted notices result =>
    rw [hafter, State.outcome?, Option.some.injEq] at hn
    exact ⟨n, notices, result, hafter, hn.symm⟩

theorem after_succ_of_running {n : Nat} {st : Running}
    (h : after t s d policy route n = .running st) :
    after t s d policy route (n + 1) = step t s d (.running st) := by
  rw [after, h]

/-- An evaluation that is over stays so. -/
theorem after_of_halted {n m : Nat} {notices : List Notice}
    {result : Except MalformedPolicy Table.Completion}
    (h : after t s d policy route n = .halted notices result) (hle : n ≤ m) :
    after t s d policy route m = .halted notices result := by
  induction hle with
  | refl => exact h
  | step _ ih => rw [after, ih, step]

/-- Whenever the machine is found halted, it shows the result of the evaluation. -/
theorem evaluate_of_halted {n : Nat} {notices : List Notice}
    {result : Except MalformedPolicy Table.Completion}
    (h : after t s d policy route n = .halted notices result) :
    t.evaluate s policy route d =
      (notices, result.map fun c => ⟨c.action, c.environment.overlay⟩) := by
  obtain ⟨m, notices', result', hafter, heq⟩ := exists_halted t s d policy route
  have hn := after_of_halted h (Nat.le_max_left n m)
  have hm := after_of_halted hafter (Nat.le_max_right n m)
  cases hn.symm.trans hm
  exact heq

end Machine

end RoutePolicy
