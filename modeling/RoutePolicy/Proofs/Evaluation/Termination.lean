import RoutePolicy.Proofs.Evaluation.Effect
import RoutePolicy.Proofs.Table.Places

/-!
# Evaluations terminate

On every table the machine halts, and at every moment before that the stack of running policies
and the list of top-level runs are short, because neither ever holds a policy twice.

* `Machine.Move` — all that a step can do to the stack and to the top-level runs;
* `Machine.Sound` — what holds at every moment, kept by every move;
* `Machine.callDepth_le_after` — the bound on the depth holds at every moment;
* `Registry.evaluate_terminates` — the bounds for every registry.
-/

set_option autoImplicit false

namespace RoutePolicy

/-- The number of top-level runs that notices report. -/
def topLevelRuns (notices : List Notice) : Nat :=
  notices.countP fun
    | .event (.topLevelEvaluation _ _) => true
    | _ => false

theorem topLevelRuns_append (ns ms : List Notice) :
    topLevelRuns (ns ++ ms) = topLevelRuns ns + topLevelRuns ms := List.countP_append

theorem topLevelRuns_startNotices (s : Settings) (d : Direction) (policy : String) :
    topLevelRuns (Table.startNotices s d policy) = 1 := by
  rw [Table.startNotices, Table.initialAction]
  cases s.defaultAction with
  | some action => rfl
  | none => cases d <;> rfl

namespace Machine

variable (t : Table) (s : Settings) (d : Direction)

/-- All that a step can do to the stack of running policies and to the top-level runs: it ends the
evaluation, it leaves them alone, a policy is entered or left, or a default policy takes over. -/
inductive Move (st : Running) : State → Prop where
  | halts (notices : List Notice) (result : Except MalformedPolicy Table.Completion)
      (runs_eq : topLevelRuns notices = topLevelRuns st.notices) :
      Move st (.halted notices result)
  | stays (st' : Running) (policy_eq : st'.policy = st.policy)
      (callStack_eq : st'.callStack = st.callStack) (callDepth_eq : st'.callDepth = st.callDepth)
      (callees_eq : st'.callees = st.callees) (visited_eq : st'.visited = st.visited)
      (runs_eq : topLevelRuns st'.notices = topLevelRuns st.notices) :
      Move st (.running st')
  | enters (st' : Running) (id : PolicyId) (callee : Policy) (get_eq : t.get? id = some callee)
      (fresh : id ∉ st.callStack) (room : st.callDepth < s.maxCallDepth)
      (policy_eq : st'.policy = callee.name) (callStack_eq : st'.callStack = st.callStack ++ [id])
      (callDepth_eq : st'.callDepth = st.callDepth + 1)
      (callees_eq : st'.callees = st.callees + 1) (visited_eq : st'.visited = st.visited)
      (runs_eq : topLevelRuns st'.notices = topLevelRuns st.notices) :
      Move st (.running st')
  | returns (st' : Running) (callStack_eq : st'.callStack = st.callStack.dropLast)
      (callDepth_eq : st'.callDepth = st.callDepth - 1)
      (callees_eq : st.callees = st'.callees + 1) (visited_eq : st'.visited = st.visited)
      (runs_eq : topLevelRuns st'.notices = topLevelRuns st.notices) :
      Move st (.running st')
  | falls (st' : Running) (id : PolicyId) (p : Policy) (get_eq : t.get? id = some p)
      (fresh : id ∉ st.visited) (policy_eq : st'.policy = p.name)
      (callStack_eq : st'.callStack = [id]) (callDepth_eq : st'.callDepth = 0)
      (callees_eq : st'.callees = 0) (visited_eq : st'.visited = st.visited ++ [id])
      (runs_eq : topLevelRuns st'.notices = topLevelRuns st.notices + 1) :
      Move st (.running st')

variable {t s d}

/-- A moment that differs in its control, its environment and what it reported. -/
theorem Move.stays_goto {st : Running} (control : Control) (env : Environment)
    (notices : List Notice) (hcallees : control.callees = st.callees)
    (hruns : topLevelRuns notices = topLevelRuns st.notices) :
    Move t s st (.running { st with control, environment := env, notices }) :=
  .stays _ rfl rfl rfl hcallees rfl hruns

theorem move_proceed {α : Type} (st : Running) (o : Outcome α) (next : α → Control)
    (hnotices : o.notices = []) (hcallees : ∀ a, (next a).callees = st.callees) :
    Move t s st (st.proceed o next) := by
  rw [Running.proceed, hnotices, List.append_nil]
  cases o.result with
  | error e => exact .halts _ _ rfl
  | ok result => exact .stays_goto _ _ _ (hcallees result.1) rfl

/-- Entering: what waits for the policy has one callee more than there are, and control stays
where it is without it. -/
theorem move_enter (st : Running) (r : Reference) {waits : Policy → OnFlow}
    {absent refused : Control} (hwaits : ∀ p, (waits p).callees = st.callees + 1)
    (habsent : absent.callees = st.callees) (hrefused : refused.callees = st.callees) :
    Move t s st (.running (enter t s st r waits absent refused)) := by
  have hentered := entered_enter t s st r waits absent refused
  generalize enter t s st r waits absent refused = st' at hentered ⊢
  cases hentered with
  | absent => exact .stays_goto absent _ _ habsent rfl
  | cycle => exact .stays_goto refused _ _ hrefused (topLevelRuns_append _ _)
  | depth => exact .stays_goto refused _ _ hrefused (topLevelRuns_append _ _)
  | runs id callee _ hg hfresh hroom =>
    exact .enters _ id callee hg hfresh hroom rfl rfl rfl (hwaits callee) rfl rfl

theorem notices_write (policy : String) (field : RouteField) (update : Update)
    (env : Environment) : (Evaluation.write policy field update env).notices = [] := by
  rw [Evaluation.write]
  split
  · rfl
  · split <;> rfl

theorem notices_control (kind : RoutePolicy.Control) (env : Environment) :
    (kind.run env).notices = [] := by
  cases kind <;> rfl

theorem move_runNext (st : Running) (next : OnFlow) (hnext : next.callees = st.callees)
    (statement : Statement) : Move t s st (runNext t s st next statement) := by
  cases statement with
  | branch guard a b => exact .stays_goto _ _ _ hnext rfl
  | write field update => exact move_proceed st _ _ (notices_write ..) fun _ => hnext
  | setDefaultPolicy target => exact .stays_goto _ _ _ hnext rfl
  | call target => exact move_enter st target (fun _ => congrArg (· + 1) hnext) hnext hnext
  | comment text => exact .stays_goto _ _ _ hnext rfl
  | control kind => exact move_proceed st _ _ (notices_control ..) fun _ => hnext

theorem callees_nextOperand (neutral value : Bool) (next : OnVerdict) (cs : List Condition) :
    (nextOperand neutral value next cs).callees = next.callees := by
  cases cs <;> rfl

theorem move_ask (st : Running) (r : Reference) (next : OnVerdict)
    (hnext : next.callees = st.callees) : Move t s st (.running (ask t s st r next)) :=
  move_enter st r (fun _ => congrArg (· + 1) hnext) hnext hnext

theorem move_judgeNext (st : Running) (next : OnVerdict) (hnext : next.callees = st.callees)
    (c : Condition) : Move t s st (.running (judgeNext t s st next c)) := by
  cases c with
  | literal b => exact .stays_goto _ _ _ hnext rfl
  | test p => exact .stays_goto _ _ _ hnext rfl
  | not c => exact .stays_goto _ _ _ hnext rfl
  | all cs => exact .stays_goto _ _ _ ((callees_nextOperand _ _ _ cs).trans hnext) rfl
  | any cs => exact .stays_goto _ _ _ ((callees_nextOperand _ _ _ cs).trans hnext) rfl
  | firstMatch targets =>
    cases targets with
    | nil => exact .stays_goto _ _ _ hnext rfl
    | cons r rs => exact move_ask st r _ hnext
  | allMatch targets =>
    cases targets with
    | nil => exact .stays_goto _ _ _ hnext rfl
    | cons r rs => exact move_ask st r _ hnext
  | callPolicy target => exact move_ask st target _ hnext
  | inCall => exact .stays_goto _ _ _ hnext rfl

theorem callees_takeVerdict (v : Verdict) (next : OnVerdict) :
    (takeVerdict v next).callees = next.callees := by
  cases next with
  | branch a b next => rfl
  | negate next => rfl
  | operands neutral value cs next => exact callees_nextOperand _ _ _ cs
  | firstOf rs next =>
    rw [takeVerdict]
    split <;> rfl
  | allOf rs next =>
    cases rs with
    | nil => rfl
    | cons r rs =>
      rw [takeVerdict]
      split <;> rfl

theorem move_takeFlow (st : Running) (flow : Flow) (next : OnFlow)
    (hnext : next.callees = st.callees) : Move t s st (takeFlow t s d st flow next) := by
  cases next with
  | rest ss next =>
    rw [takeFlow]
    split <;> exact .stays_goto _ _ _ hnext rfl
  | called caller next => exact .returns _ rfl rfl hnext.symm rfl rfl
  | asked caller callee action policy next =>
    exact .returns _ rfl rfl hnext.symm rfl (topLevelRuns_append _ _)
  | topLevel =>
    rw [takeFlow]
    cases hend : t.ending st.visited st.environment flow with
    | decides action => exact .halts _ _ (topLevelRuns_append _ _)
    | repeats id =>
      refine .halts _ _ ?_
      rw [topLevelRuns_append, topLevelRuns_append]
      rfl
    | fallsTo id q =>
      obtain ⟨hv, hg⟩ := t.of_ending_fallsTo hend
      refine .falls _ id q hg hv rfl rfl rfl rfl rfl ?_
      rw [topLevel, topLevelRuns_append, topLevelRuns_append, topLevelRuns_startNotices]
      rfl

/-- Every step is one of the moves. -/
theorem move_step (st : Running) : Move t s st (step t s d (.running st)) := by
  rw [step]
  cases hcontrol : st.control with
  | runs ss next =>
    have hnext : next.callees = st.callees := by rw [Running.callees, hcontrol]; rfl
    cases ss with
    | nil => exact .stays_goto _ _ _ hnext rfl
    | cons statement ss => exact move_runNext st (.rest ss next) hnext statement
  | judges c next =>
    have hnext : next.callees = st.callees := by rw [Running.callees, hcontrol]; rfl
    exact move_judgeNext st next hnext c
  | leaves flow next =>
    have hnext : next.callees = st.callees := by rw [Running.callees, hcontrol]; rfl
    exact move_takeFlow st flow next hnext
  | gives v next =>
    have hnext : next.callees = st.callees := by rw [Running.callees, hcontrol]; rfl
    exact .stays_goto _ _ _ ((callees_takeVerdict v next).trans hnext) rfl

/-! ## The invariant -/

variable (t) in
/-- What holds at every moment: the stack starts with the current top-level policy, each policy on
it but the first runs on behalf of the one before it, and every top-level run is of a policy that
had none before. -/
structure Sound (st : Running) : Prop where
  stack : t.Places st.callStack
  visited : t.Places st.visited
  top : st.callStack.head? = st.visited.getLast?
  depth : st.callDepth + 1 = st.callStack.length
  callees : st.callees = st.callDepth
  runs : topLevelRuns st.notices = st.visited.length

theorem sound_topLevel (visited : List PolicyId) {id : PolicyId} {p : Policy}
    (hvisited : t.Places (visited ++ [id])) (hg : t.get? id = some p) (env : Environment)
    (notices : List Notice) (hruns : topLevelRuns notices = visited.length) :
    Sound t (topLevel s d (visited ++ [id]) id p env notices) where
  stack := .singleton hg
  visited := hvisited
  top := by simp [topLevel]
  depth := rfl
  callees := rfl
  runs := by
    rw [topLevel, topLevelRuns_append, hruns, topLevelRuns_startNotices, List.length_append]
    rfl

/-- Every move keeps a moment sound. -/
theorem Sound.move {st st' : Running} (h : Sound t st) (hmove : Move t s st (.running st')) :
    Sound t st' := by
  cases hmove with
  | stays _ _ hstack hdepth hcallees hvisited hruns =>
    constructor
    · rw [hstack]; exact h.stack
    · rw [hvisited]; exact h.visited
    · rw [hstack, hvisited]; exact h.top
    · rw [hstack, hdepth]; exact h.depth
    · rw [hcallees, hdepth]; exact h.callees
    · rw [hruns, hvisited]; exact h.runs
  | enters _ id callee hg hfresh _ _ hstack hdepth hcallees hvisited hruns =>
    have hne : st.callStack ≠ [] := by
      rw [← List.length_pos_iff, ← h.depth]
      exact Nat.succ_pos _
    constructor
    · rw [hstack]; exact h.stack.append hfresh hg
    · rw [hvisited]; exact h.visited
    · rw [hstack, hvisited, List.head?_append_of_ne_nil _ hne]; exact h.top
    · rw [hstack, hdepth, List.length_append, ← h.depth]; rfl
    · rw [hcallees, hdepth, h.callees]
    · rw [hruns, hvisited]; exact h.runs
  | returns _ hstack hdepth hcallees hvisited hruns =>
    have hcallees' := h.callees
    have hdepth' := h.depth
    -- there is a caller below the policy that is left, so the first policy stays
    constructor
    · rw [hstack]; exact h.stack.sublist (List.dropLast_sublist _)
    · rw [hvisited]; exact h.visited
    · rw [hstack, hvisited, List.head?_dropLast, if_pos (by omega)]; exact h.top
    · rw [hstack, hdepth, List.length_dropLast]; omega
    · omega
    · rw [hruns, hvisited]; exact h.runs
  | falls _ id p hg hfresh _ hstack hdepth hcallees hvisited hruns =>
    constructor
    · rw [hstack]; exact .singleton hg
    · rw [hvisited]; exact h.visited.append hfresh hg
    · rw [hstack, hvisited]; simp
    · rw [hstack, hdepth]; rfl
    · rw [hcallees, hdepth]
    · rw [hruns, hvisited, h.runs, List.length_append]; rfl

/-- Every moment of every evaluation is sound. -/
theorem sound_after (policy : String) (route : Route) (n : Nat) {st : Running}
    (h : after t s d policy route n = .running st) : Sound t st :=
  invariant_after (fun _ _ hg => sound_topLevel [] (.singleton hg) hg _ [] rfl)
    (fun st _ hst hstep => hst.move (hstep ▸ move_step st)) n h

theorem Move.callDepth_le {st st' : Running} (h : st.callDepth ≤ s.maxCallDepth)
    (hmove : Move t s st (.running st')) : st'.callDepth ≤ s.maxCallDepth := by
  cases hmove with
  | stays _ _ _ hdepth => omega
  | enters _ _ _ _ _ hroom _ _ hdepth => omega
  | returns _ _ hdepth => omega
  | falls _ _ _ _ _ _ _ hdepth => omega

/-- At no moment are calls nested deeper than allowed. -/
theorem callDepth_le_after (policy : String) (route : Route) (n : Nat) {st : Running}
    (h : after t s d policy route n = .running st) : st.callDepth ≤ s.maxCallDepth :=
  invariant_after (P := fun st => st.callDepth ≤ s.maxCallDepth) (fun _ _ _ => Nat.zero_le _)
    (fun st _ hst hstep => Move.callDepth_le hst (hstep ▸ move_step st)) n h

theorem Sound.callees_lt {st : Running} (h : Sound t st) : st.callees < t.size := by
  have hle := h.stack.length_le
  rw [← h.depth, ← h.callees] at hle
  exact hle

/-- An evaluation that is over from the start has had no top-level run. -/
theorem topLevelRuns_of_start_halted {policy : String} {route : Route} {notices : List Notice}
    {result : Except MalformedPolicy Table.Completion}
    (h : start t s d policy route = .halted notices result) : topLevelRuns notices = 0 := by
  rw [start] at h
  split at h
  · cases h
    rfl
  · split at h
    · cases h
      rfl
    · cases h

theorem topLevelRuns_after (policy : String) (route : Route) (n : Nat) {notices : List Notice}
    {result : Except MalformedPolicy Table.Completion}
    (h : after t s d policy route n = .halted notices result) :
    topLevelRuns notices ≤ t.size := by
  rcases halted_at_start_or_last h with hstart | ⟨m, st, hst, hstep⟩
  · rw [topLevelRuns_of_start_halted hstart]
    exact Nat.zero_le _
  · have hsound := sound_after policy route m hst
    have hmove := move_step (t := t) (s := s) (d := d) st
    rw [hstep] at hmove
    cases hmove with
    | halts _ _ hruns =>
      rw [hruns, hsound.runs]
      exact hsound.visited.length_le

end Machine

/-- **Evaluation terminates on every table.**  However the policies of a registry call each other,
and however deep calls may nest, the machine comes to the result of the evaluation after some
number of steps.  At every moment before that there are fewer nested callees than policies, and no
more policies than that have had a top-level run, in the end as well. -/
theorem Registry.evaluate_terminates (r : Registry) (s : Settings) (policy : String)
    (route : Route) (d : Direction) :
    (∃ n, (Machine.after r.freeze.2 s d policy route n).outcome? =
      some (r.freeze.2.evaluate s policy route d)) ∧
    (∀ n st, Machine.after r.freeze.2 s d policy route n = .running st →
      st.callees < r.freeze.2.size ∧ st.visited.length ≤ r.freeze.2.size) ∧
    topLevelRuns (r.freeze.2.evaluate s policy route d).1 ≤ r.freeze.2.size := by
  obtain ⟨n, hn⟩ :=
    Machine.exists_outcome?_after (t := r.freeze.2) (s := s) (d := d) policy route
  refine ⟨⟨n, hn⟩, fun m st hst => ?_, ?_⟩
  · have hsound := Machine.sound_after policy route m hst
    exact ⟨hsound.callees_lt, hsound.visited.length_le⟩
  · cases hafter : Machine.after r.freeze.2 s d policy route n with
    | running st =>
      rw [hafter] at hn
      cases hn
    | halted notices result =>
      rw [hafter, Machine.State.outcome?, Option.some.injEq] at hn
      rw [← hn]
      exact Machine.topLevelRuns_after policy route n hafter

end RoutePolicy
