import RoutePolicy.Proofs.Evaluation.Termination

/-!
# Attempts to enter a policy

Policies are entered in place, by a call, and for their verdict, by a condition that asks a single
policy or by a member of a chain.  Each attempt may be refused, because the policy is running
already or because calls nest too deep.  Together with the default policy that had its run before,
these refusals are all that an evaluation under way ever finds fault with.

* `Machine.Attempt`, `Machine.Running.attempt?` — the attempt that the next step makes;
* `Machine.Refusal` — the two reasons to refuse an attempt, with what is reported;
* `Machine.step_of_refusal` — where a refused attempt goes on;
* `Machine.Report`, `Machine.report_step` — all that a step can report, and that nothing which was
  reported is ever taken back;
* `Machine.StepReports`, `Machine.exists_stepReports` — every diagnostic of an evaluation is
  reported at some moment.
-/

set_option autoImplicit false

namespace RoutePolicy

namespace Machine

/-- An attempt to enter the policy that a reference is linked to, with what waits for control to
come back from it or for its verdict. -/
inductive Attempt where
  | inPlace (target : Reference) (next : OnFlow)
  | forVerdict (target : Reference) (next : OnVerdict)

namespace Attempt

/-- The reference that is followed. -/
def target : Attempt → Reference
  | .inPlace target _ => target
  | .forVerdict target _ => target

/-- Where control goes when the attempt is refused: a call rejects, and a policy that is asked
gives no verdict. -/
def refused : Attempt → Control
  | .inPlace _ next => .leaves (.exits .reject) next
  | .forVerdict _ next => .gives .unmatched next

/-- Makes the attempt. -/
def make (t : Table) (s : Settings) (st : Running) : Attempt → Running
  | .inPlace target next => call t s st target next
  | .forVerdict target next => ask t s st target next

end Attempt

/-- The attempt that the next step makes. -/
def Running.attempt? (st : Running) : Option Attempt :=
  match st.control with
  | .runs (.call r :: ss) next => some (.inPlace r (.rest ss next))
  | .judges (.callPolicy r) next => some (.forVerdict r next)
  | .judges (.firstMatch (r :: rs)) next => some (.forVerdict r (.firstOf rs next))
  | .judges (.allMatch (r :: rs)) next => some (.forVerdict r (.allOf rs next))
  | _ => none

/-- What has been reported so far. -/
def State.notices : State → List Notice
  | .running st => st.notices
  | .halted notices _ => notices

variable (t : Table) (s : Settings) (d : Direction)

/-- A policy may not be entered: it is running, or calls are nested as deep as they may be.  With
each reason comes what is reported. -/
inductive Refusal (st : Running) (r : Reference) : List Notice → Prop where
  | cycle (id : PolicyId) (callee : Policy) (link_eq : r.link = some id)
      (get_eq : t.get? id = some callee) (runs : id ∈ st.callStack) :
      Refusal st r (t.cycleNotices st.policy (st.callStack ++ [id]))
  | depth (id : PolicyId) (callee : Policy) (link_eq : r.link = some id)
      (get_eq : t.get? id = some callee) (fresh : id ∉ st.callStack)
      (deep : s.maxCallDepth ≤ st.callDepth) :
      Refusal st r (Table.depthNotices st.policy st.callDepth)

/-- All that a step can report: nothing but events, the refusal of an attempt, or that the default
policy at the end of a top-level run had its run before. -/
inductive Report (st : Running) : List Notice → Prop where
  | silent (notices : List Notice) (diagnostics_eq : diagnosticsOf notices = []) :
      Report st notices
  | refuses (a : Attempt) (notices : List Notice) (attempt_eq : st.attempt? = some a)
      (refusal : Refusal t s st a.target notices) : Report st notices
  | repeats (flow : Flow) (id : PolicyId) (notices : List Notice)
      (control_eq : st.control = .leaves flow .topLevel)
      (ending_eq : t.ending st.visited st.environment flow = .repeats id)
      (diagnostics_eq : diagnosticsOf notices =
        diagnosticsOf (t.cycleNotices st.policy (st.visited ++ [id]))) : Report st notices

variable {t s d}

theorem attempt?_of_call {st : Running} {target : Reference} {ss : List Statement} {next : OnFlow}
    (hcontrol : st.control = .runs (.call target :: ss) next) :
    st.attempt? = some (.inPlace target (.rest ss next)) := by
  rw [Running.attempt?, hcontrol]

theorem step_of_attempt? {st : Running} {a : Attempt} (h : st.attempt? = some a) :
    step t s d (.running st) = .running (a.make t s st) := by
  unfold Running.attempt? at h
  rw [step]
  split at h
  case h_5 => cases h
  all_goals
    rename_i hcontrol
    cases h
    rw [hcontrol]
    rfl

/-- A condition that makes no attempt is taken apart in the same way everywhere. -/
theorem judgeNext_of_attempt? {st : Running} {c : Condition} {next : OnVerdict}
    (hcontrol : st.control = .judges c next) (hnone : st.attempt? = none) :
    ∃ control, ∀ t s, judgeNext t s st next c = st.goto control := by
  rw [Running.attempt?, hcontrol] at hnone
  cases c with
  | firstMatch targets =>
    cases targets with
    | nil => exact ⟨_, fun _ _ => rfl⟩
    | cons r rs => cases hnone
  | allMatch targets =>
    cases targets with
    | nil => exact ⟨_, fun _ _ => rfl⟩
    | cons r rs => cases hnone
  | callPolicy target => cases hnone
  | _ => exact ⟨_, fun _ _ => rfl⟩

/-! ## Refusals -/

theorem enter_of_refusal {st : Running} {r : Reference} {notices : List Notice}
    (h : Refusal t s st r notices) (waits : Policy → OnFlow) (absent refused : Control) :
    enter t s st r waits absent refused =
      { st with control := refused, notices := st.notices ++ notices } := by
  cases h with
  | cycle id callee hlink hg hruns =>
    simp only [enter, hlink, Option.bind_some, hg, Option.map_some, if_pos hruns]
  | depth id callee hlink hg hfresh hdeep =>
    simp only [enter, hlink, Option.bind_some, hg, Option.map_some, if_neg hfresh, if_pos hdeep]

/-- A refused attempt changes where control is and adds to the notices, and does nothing else. -/
theorem step_of_refusal {st : Running} {a : Attempt} (h : st.attempt? = some a)
    {notices : List Notice} (hrefusal : Refusal t s st a.target notices) :
    step t s d (.running st) =
      .running { st with control := a.refused, notices := st.notices ++ notices } := by
  rw [step_of_attempt? h]
  cases a with
  | inPlace target next => exact congrArg State.running (enter_of_refusal hrefusal _ _ _)
  | forVerdict target next => exact congrArg State.running (enter_of_refusal hrefusal _ _ _)

/-- Without a refusal an attempt reports nothing. -/
theorem notices_enter (st : Running) (r : Reference) (waits : Policy → OnFlow)
    (absent refused : Control) :
    (enter t s st r waits absent refused).notices = st.notices ∨
      ∃ notices, Refusal t s st r notices ∧
        (enter t s st r waits absent refused).notices = st.notices ++ notices := by
  have hentered := entered_enter t s st r waits absent refused
  generalize enter t s st r waits absent refused = st' at hentered ⊢
  cases hentered with
  | absent => exact .inl rfl
  | cycle id callee hlink hg hruns => exact .inr ⟨_, .cycle id callee hlink hg hruns, rfl⟩
  | depth id callee hlink hg hfresh hdeep =>
    exact .inr ⟨_, .depth id callee hlink hg hfresh hdeep, rfl⟩
  | runs => exact .inl rfl

/-! ## Reports -/

/-- What is reported by the step to a state. -/
def Reports (t : Table) (s : Settings) (st : Running) (next : State) : Prop :=
  ∃ notices, next.notices = st.notices ++ notices ∧ Report t s st notices

theorem reports_of_notices_eq {st : Running} {next : State} (h : next.notices = st.notices) :
    Reports t s st next :=
  ⟨[], h.trans (List.append_nil _).symm, .silent [] rfl⟩

theorem reports_make {st : Running} {a : Attempt} (h : st.attempt? = some a) :
    Reports t s st (.running (a.make t s st)) := by
  have hmake : (a.make t s st).notices = st.notices ∨ ∃ notices,
      Refusal t s st a.target notices ∧ (a.make t s st).notices = st.notices ++ notices := by
    cases a with
    | inPlace target next => exact notices_enter st target _ _ _
    | forVerdict target next => exact notices_enter st target _ _ _
  rcases hmake with hsame | ⟨notices, hrefusal, hmore⟩
  · exact reports_of_notices_eq hsame
  · exact ⟨notices, hmore, .refuses a notices h hrefusal⟩

theorem reports_proceed {α : Type} (st : Running) (o : Outcome α) (next : α → Control)
    (h : o.notices = []) : Reports t s st (st.proceed o next) := by
  refine reports_of_notices_eq ?_
  rw [Running.proceed, h, List.append_nil]
  cases o.result <;> rfl

theorem reports_runNext {st : Running} {statement : Statement} {ss : List Statement}
    {next : OnFlow} (hcontrol : st.control = .runs (statement :: ss) next) :
    Reports t s st (runNext t s st (.rest ss next) statement) := by
  cases statement with
  | branch guard a b => exact reports_of_notices_eq rfl
  | write field update => exact reports_proceed st _ _ (notices_write ..)
  | setDefaultPolicy target => exact reports_of_notices_eq rfl
  | call target => exact reports_make (attempt?_of_call hcontrol)
  | comment text => exact reports_of_notices_eq rfl
  | control kind => exact reports_proceed st _ _ (notices_control ..)

theorem reports_takeFlow {st : Running} {flow : Flow} {next : OnFlow}
    (hcontrol : st.control = .leaves flow next) :
    Reports t s st (takeFlow t s d st flow next) := by
  cases next with
  | rest ss next => exact reports_of_notices_eq rfl
  | called caller next => exact reports_of_notices_eq rfl
  | asked caller callee action policy next => exact ⟨_, rfl, .silent _ rfl⟩
  | topLevel =>
    rw [takeFlow]
    cases hending : t.ending st.visited st.environment flow with
    | decides action => exact ⟨_, rfl, .silent _ rfl⟩
    | repeats id =>
      refine ⟨_, List.append_assoc _ _ _, .repeats flow id _ hcontrol hending ?_⟩
      rw [diagnosticsOf_append, Table.diagnosticsOf_finish, List.append_nil]
    | fallsTo id q =>
      refine ⟨_, List.append_assoc _ _ _, .silent _ ?_⟩
      rw [diagnosticsOf_append, Table.diagnosticsOf_startNotices, List.append_nil]
      rfl

/-- A step keeps all that was reported, and what it adds is one of the reports. -/
theorem report_step (st : Running) : Reports t s st (step t s d (.running st)) := by
  cases hattempt : st.attempt? with
  | some a =>
    rw [step_of_attempt? hattempt]
    exact reports_make hattempt
  | none =>
    rw [step]
    cases hcontrol : st.control with
    | runs ss next =>
      cases ss with
      | nil => exact reports_of_notices_eq rfl
      | cons statement ss => exact reports_runNext hcontrol
    | judges c next =>
      obtain ⟨control, hjudge⟩ := judgeNext_of_attempt? hcontrol hattempt
      exact reports_of_notices_eq (by simp only [hjudge]; rfl)
    | leaves flow next => exact reports_takeFlow hcontrol
    | gives v next => exact reports_of_notices_eq rfl

/-! ## Reports of a whole evaluation -/

/-- The step from a moment reports the diagnostic. -/
def StepReports (t : Table) (s : Settings) (d : Direction) (st : Running) (x : Diagnostic) :
    Prop :=
  ∃ notices, (step t s d (.running st)).notices = st.notices ++ notices ∧
    x ∈ diagnosticsOf notices

theorem StepReports.report {st : Running} {x : Diagnostic} (h : StepReports t s d st x) :
    ∃ notices, Report t s st notices ∧ x ∈ diagnosticsOf notices := by
  obtain ⟨notices, hnotices, hx⟩ := h
  obtain ⟨notices', hnotices', hreport⟩ := report_step (t := t) (s := s) (d := d) st
  rw [hnotices, List.append_cancel_left_eq] at hnotices'
  exact ⟨notices, hnotices' ▸ hreport, hx⟩

theorem finding_of_mem_start {policy : String} {route : Route} {x : Diagnostic}
    (hx : x ∈ diagnosticsOf (start t s d policy route).notices) :
    x.finding = .undefinedReference .policy policy := by
  rw [start] at hx
  split at hx
  · cases List.mem_singleton.mp hx
    rfl
  · split at hx
    · cases hx
    · rename_i p _
      have hnone : diagnosticsOf ([] ++ Table.startNotices s d p.name) = [] := by
        rw [List.nil_append, Table.diagnosticsOf_startNotices]
      rw [State.notices, topLevel, hnone] at hx
      cases hx

/-- Whatever has been reported, but for an undefined start, was reported by a step. -/
theorem exists_stepReports (policy : String) (route : Route) (n : Nat) {x : Diagnostic}
    (hx : x ∈ diagnosticsOf (after t s d policy route n).notices) :
    x.finding = .undefinedReference .policy policy ∨
      ∃ m st, after t s d policy route m = .running st ∧ StepReports t s d st x := by
  induction n with
  | zero => exact .inl (finding_of_mem_start hx)
  | succ n ih =>
    cases hprevious : after t s d policy route n with
    | halted notices result =>
      rw [after_of_halted hprevious (Nat.le_succ n), ← hprevious] at hx
      exact ih hx
    | running st =>
      obtain ⟨notices, hnotices, -⟩ := report_step (t := t) (s := s) (d := d) st
      rw [after_succ_of_running hprevious, hnotices, diagnosticsOf_append] at hx
      rw [hprevious] at ih
      rcases List.mem_append.mp hx with hbefore | hnow
      · exact ih hbefore
      · exact .inr ⟨n, st, hprevious, notices, hnotices, hnow⟩

end Machine

end RoutePolicy
