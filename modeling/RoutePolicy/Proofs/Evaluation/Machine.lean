import RoutePolicy.Proofs.Evaluation.Entering

/-!
# Evaluation in single steps

The evaluation of a policy as a machine whose state shows everything that is going on at a moment:
the statement or condition that is next, all that waits for its outcome, the environment, the
stack of running policies with its depth, and the policies that had a top-level run.

* `OnFlow`, `OnVerdict` — what waits for control to leave a list of statements, and what waits for
  the verdict of a condition; there is no state in which the one kind meets the other;
* `Machine.Running`, `Machine.State` — a moment of the evaluation, and its end;
* `Machine.step` — one step: a condition or a statement is taken apart, a reference is entered, or
  what waits next goes on;
* `Machine.after` — the state after a number of steps from the start of an evaluation;
* `Machine.entered_enter` — the ways in which an attempt to enter a policy can go.

Nothing in a step recurses, neither through the table nor through the syntax.
-/

set_option autoImplicit false

namespace RoutePolicy

mutual

/-- What waits for control to leave a list of statements. -/
inductive OnFlow where
  | topLevel
  | rest (statements : List Statement) (next : OnFlow)
  | called (caller : String) (next : OnFlow)
  | asked (caller callee : String) (action : Action) (policy : Option PolicyId) (next : OnVerdict)

/-- What waits for the verdict of a condition. -/
inductive OnVerdict where
  | branch (thenBranch elseBranch : List Statement) (next : OnFlow)
  | negate (next : OnVerdict)
  | operands (neutral value : Bool) (conditions : List Condition) (next : OnVerdict)
  | firstOf (targets : List Reference) (next : OnVerdict)
  | allOf (targets : List Reference) (next : OnVerdict)

end

mutual

/-- The number of policies that run on behalf of another one. -/
def OnFlow.callees : OnFlow → Nat
  | .topLevel => 0
  | .rest _ next => next.callees
  | .called _ next => next.callees + 1
  | .asked _ _ _ _ next => next.callees + 1

/-- The number of policies that run on behalf of another one. -/
def OnVerdict.callees : OnVerdict → Nat
  | .branch _ _ next => next.callees
  | .negate next => next.callees
  | .operands _ _ _ next => next.callees
  | .firstOf _ next => next.callees
  | .allOf _ next => next.callees

end

namespace Machine

/-- What happens next. -/
inductive Control where
  | runs (statements : List Statement) (next : OnFlow)
  | judges (condition : Condition) (next : OnVerdict)
  | leaves (flow : Flow) (next : OnFlow)
  | gives (verdict : Verdict) (next : OnVerdict)

/-- The number of policies that run on behalf of another one. -/
def Control.callees : Control → Nat
  | .runs _ next => next.callees
  | .judges _ next => next.callees
  | .leaves _ next => next.callees
  | .gives _ next => next.callees

/-- A moment of an evaluation. -/
structure Running where
  control : Control
  policy : String
  environment : Environment
  callStack : List PolicyId
  callDepth : Nat
  visited : List PolicyId
  notices : List Notice

/-- An evaluation under way, or its end. -/
inductive State where
  | running (st : Running)
  | halted (notices : List Notice) (result : Except MalformedPolicy Table.Completion)

/-- What an evaluation came to, when it is over. -/
def State.outcome? : State → Option (List Notice × Except MalformedPolicy Decision)
  | .running _ => none
  | .halted notices result =>
    some (notices, result.map fun c => ⟨c.action, c.environment.overlay⟩)

namespace Running

/-- The number of policies that run on behalf of another one. -/
def callees (st : Running) : Nat := st.control.callees

/-- The moment with another control. -/
def goto (st : Running) (control : Control) : Running := { st with control }

/-- Takes the outcome of a computation over: its notices, and its environment or its failure. -/
def proceed {α : Type} (st : Running) (o : Outcome α) (next : α → Control) : State :=
  match o.result with
  | .ok (a, env) => .running
      { st with control := next a, environment := env, notices := st.notices ++ o.notices }
  | .error e => .halted (st.notices ++ o.notices) (.error e)

/-- Control is back in the caller of the running policy. -/
def pop (st : Running) (caller : String) : Running :=
  { st with
    policy := caller
    callStack := st.callStack.dropLast
    callDepth := st.callDepth - 1 }

end Running

section

variable (t : Table) (s : Settings) (d : Direction)

/-- A top-level run starts. -/
def topLevel (visited : List PolicyId) (id : PolicyId) (p : Policy) (env : Environment)
    (notices : List Notice) : Running where
  control := .runs p.statements .topLevel
  policy := p.name
  environment := Table.freshen s d p.name env
  callStack := [id]
  callDepth := 0
  visited := visited
  notices := notices ++ Table.startNotices s d p.name

/-- Tries to enter the policy that a reference is linked to.  `waits` is what will wait for it, and
`absent` and `refused` are where control goes without it. -/
def enter (st : Running) (r : Reference) (waits : Policy → OnFlow) (absent refused : Control) :
    Running :=
  match r.link.bind fun id => (t.get? id).map (id, ·) with
  | none => st.goto absent
  | some (id, callee) =>
    if id ∈ st.callStack then
      { st with
        control := refused
        notices := st.notices ++ t.cycleNotices st.policy (st.callStack ++ [id]) }
    else if s.maxCallDepth ≤ st.callDepth then
      { st with
        control := refused
        notices := st.notices ++ Table.depthNotices st.policy st.callDepth }
    else
      { st with
        control := .runs callee.statements (waits callee)
        policy := callee.name
        callStack := st.callStack ++ [id]
        callDepth := st.callDepth + 1 }

/-- Runs a policy in place. -/
def call (st : Running) (r : Reference) (next : OnFlow) : Running :=
  enter t s st r (fun _ => .called st.policy next) (.leaves .fallsThrough next)
    (.leaves (.exits .reject) next)

/-- Runs a policy for its verdict. -/
def ask (st : Running) (r : Reference) (next : OnVerdict) : Running :=
  enter t s st r
    (fun callee => .asked st.policy callee.name st.environment.defaultAction
      st.environment.defaultPolicy next)
    (.gives .unmatched next) (.gives .unmatched next)

/-- A statement is taken from a list. -/
def runNext (st : Running) (next : OnFlow) : Statement → State
  | .branch guard a b => .running (st.goto (.judges guard (.branch a b next)))
  | .write field update =>
    st.proceed (Evaluation.write st.policy field update st.environment) fun _ =>
      .leaves .fallsThrough next
  | .setDefaultPolicy target =>
    let env := match target.link with
      | some id => { st.environment with defaultPolicy := some id }
      | none => st.environment
    .running { st with control := .leaves .fallsThrough next, environment := env }
  | .call target => .running (call t s st target next)
  | .comment _ => .running (st.goto (.leaves .fallsThrough next))
  | .control kind => st.proceed (kind.run st.environment) (.leaves · next)

/-- The value of a connective with one more operand: a conjunction when the neutral value is
true. -/
def withOperand (neutral value : Bool) (v : Verdict) : Bool :=
  if neutral then value && v.isTrue else value || v.isTrue

/-- The next operand of a connective is judged, or its value is known. -/
def nextOperand (neutral value : Bool) (next : OnVerdict) : List Condition → Control
  | [] => .gives (.matched value) next
  | c :: cs => .judges c (.operands neutral value cs next)

/-- A condition is taken apart. -/
def judgeNext (st : Running) (next : OnVerdict) : Condition → Running
  | .literal b => st.goto (.gives (.matched b) next)
  | .test p => st.goto (.gives (.matched (p.holds st.environment.route)) next)
  | .not c => st.goto (.judges c (.negate next))
  | .all cs => st.goto (nextOperand true true next cs)
  | .any cs => st.goto (nextOperand false false next cs)
  | .firstMatch [] => st.goto (.gives .unmatched next)
  | .firstMatch (r :: rs) => ask t s st r (.firstOf rs next)
  | .allMatch [] => st.goto (.gives (.matched false) next)
  | .allMatch (r :: rs) => ask t s st r (.allOf rs next)
  | .callPolicy target => ask t s st target next
  | .inCall => st.goto (.gives (.matched (0 < st.callDepth)) next)

/-- A verdict is handed to what waits for it. -/
def takeVerdict (v : Verdict) : OnVerdict → Control
  | .branch a b next => .runs (if v.isTrue then a else b) next
  | .negate next => .gives (.matched (!v.isTrue)) next
  | .operands neutral value cs next => nextOperand neutral (withOperand neutral value v) next cs
  | .firstOf rs next => if v.isDefinite then .gives v next else .judges (.firstMatch rs) next
  | .allOf [] next => .gives (.matched v.isTrue) next
  | .allOf (r :: rs) next =>
    if v.isTrue then .judges (.allMatch (r :: rs)) next else .gives (.matched false) next

/-- Control leaves a list of statements and goes to what waits for that. -/
def takeFlow (st : Running) (flow : Flow) : OnFlow → State
  | .rest ss next =>
    .running (st.goto (if flow = .fallsThrough then .runs ss next else .leaves flow next))
  | .called caller next =>
    let flow' := match flow with
      | .exits action => .exits action
      | .fallsThrough | .returns _ => .fallsThrough
    .running ((st.pop caller).goto (.leaves flow' next))
  | .asked caller callee action policy next =>
    .running
      { (st.pop caller).goto (.gives flow.verdict next) with
        environment :=
          { st.environment with defaultAction := action, defaultPolicy := policy }
        notices := st.notices ++ [.event (.callEvaluated caller callee flow.verdict)] }
  | .topLevel =>
    match t.ending st.visited st.environment flow with
    | .decides action =>
      .halted (st.notices ++ (Table.finish d st.policy action st.environment).1)
        (.ok ⟨action, st.environment⟩)
    | .repeats id =>
      .halted (st.notices ++ t.cycleNotices st.policy (st.visited ++ [id])
          ++ (Table.finish d st.policy .reject st.environment).1)
        (.ok ⟨.reject, st.environment⟩)
    | .fallsTo id q =>
      .running (topLevel s d (st.visited ++ [id]) id q st.environment
        (st.notices ++ [.event (.fallingThrough st.policy q.name)]))

/-- One step of the machine. -/
def step : State → State
  | .halted notices result => .halted notices result
  | .running st =>
    match st.control with
    | .runs [] next => .running (st.goto (.leaves .fallsThrough next))
    | .runs (statement :: ss) next => runNext t s st (.rest ss next) statement
    | .judges c next => .running (judgeNext t s st next c)
    | .leaves flow next => takeFlow t s d st flow next
    | .gives v next => .running (st.goto (takeVerdict v next))

/-- The start of the evaluation of the policy of a name on a route. -/
def start (policy : String) (route : Route) : State :=
  match t.idOf? policy with
  | none =>
    .halted
      [.event (.undefinedPolicyRejects policy),
        .diagnostic { policy, finding := .undefinedReference .policy policy }]
      (.ok ⟨.reject, Table.startOf route⟩)
  | some id =>
    match t.get? id with
    | none => .halted [] (.ok ⟨.reject, Table.startOf route⟩)
    | some p => .running (topLevel s d [id] id p (Table.startOf route) [])

/-- The state after a number of steps. -/
def after (policy : String) (route : Route) : Nat → State
  | 0 => start t s d policy route
  | n + 1 => step t s d (after policy route n)

end

/-! ## Entering a policy -/

section

variable (t : Table) (s : Settings) (st : Running) (r : Reference) (waits : Policy → OnFlow)
  (absent refused : Control)

/-- All that can come of an attempt to enter a policy: there is none, it is running already, calls
nest too deep, or it runs. -/
inductive Entered : Running → Prop where
  | absent : Entered (st.goto absent)
  | cycle (id : PolicyId) (callee : Policy) (link_eq : r.link = some id)
      (get_eq : t.get? id = some callee) (runs : id ∈ st.callStack) :
      Entered
        { st with
          control := refused
          notices := st.notices ++ t.cycleNotices st.policy (st.callStack ++ [id]) }
  | depth (id : PolicyId) (callee : Policy) (link_eq : r.link = some id)
      (get_eq : t.get? id = some callee) (fresh : id ∉ st.callStack)
      (deep : s.maxCallDepth ≤ st.callDepth) :
      Entered
        { st with
          control := refused
          notices := st.notices ++ Table.depthNotices st.policy st.callDepth }
  | runs (id : PolicyId) (callee : Policy) (link_eq : r.link = some id)
      (get_eq : t.get? id = some callee) (fresh : id ∉ st.callStack)
      (room : st.callDepth < s.maxCallDepth) :
      Entered
        { st with
          control := .runs callee.statements (waits callee)
          policy := callee.name
          callStack := st.callStack ++ [id]
          callDepth := st.callDepth + 1 }

theorem entered_enter :
    Entered t s st r waits absent refused (enter t s st r waits absent refused) := by
  unfold enter
  cases hlink : r.link with
  | none => exact .absent
  | some id =>
    rw [Option.bind_some]
    cases hg : t.get? id with
    | none => exact .absent
    | some callee =>
      rw [Option.map_some]
      simp only
      split
      · rename_i hruns
        exact .cycle id callee hlink hg hruns
      · rename_i hfresh
        split
        · rename_i hdeep
          exact .depth id callee hlink hg hfresh hdeep
        · rename_i hroom
          exact .runs id callee hlink hg hfresh (Nat.lt_of_not_le hroom)

end

end Machine

end RoutePolicy
