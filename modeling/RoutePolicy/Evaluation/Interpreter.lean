import RoutePolicy.Evaluation.Run

/-!
# Running the program of a policy

The meaning of statements and conditions, given the meaning of calls.

* `Context` — what a running policy knows about its surroundings, and how it calls other policies;
* `Statement.runAll` — runs a list of statements; the `Flow` says how control leaves it;
* `Condition.judge` — the verdict of a condition.  All operands of a connective are evaluated,
  because a call in a later operand may write attributes.
-/

set_option autoImplicit false

namespace RoutePolicy

/-- How control leaves a list of statements: at its end, by ending the evaluation, or by leaving
the policy with a verdict. -/
inductive Flow where
  | fallsThrough
  | exits (action : Action)
  | returns (verdict : Verdict)
  deriving DecidableEq, Repr

/-- The verdict of a policy that ran inside a condition. -/
def Flow.verdict : Flow → Verdict
  | .exits .accept => .matched true
  | .exits .reject => .matched false
  | .returns v => v
  | .fallsThrough => .unmatched

/-- The outcome of the attempt to enter a policy: there is none, it may not be entered, or it
ran. -/
inductive Entry where
  | absent
  | refused
  | ran (callee : String) (flow : Flow)
  deriving DecidableEq, Repr

/-- The surroundings of a running policy: its name, whether it runs on behalf of another one, and
the way to enter a policy. -/
structure Context where
  policy : String
  inCall : Bool
  enter : PolicyId → Evaluation Entry

namespace Context

/-- Tries to run the policy that a reference is linked to. -/
def visit (ctx : Context) (r : Reference) : Evaluation Entry :=
  match r.link with
  | some id => ctx.enter id
  | none => pure .absent

/-- Runs a policy in place.  Its exits end the whole evaluation, and a refused call rejects. -/
def call (ctx : Context) (r : Reference) : Evaluation Flow := do
  match ← ctx.visit r with
  | .absent => pure .fallsThrough
  | .refused => pure (.exits .reject)
  | .ran _ (.exits action) => pure (.exits action)
  | .ran _ _ => pure .fallsThrough

/-- Runs a policy for its verdict.  Writes stay, but the default action and the default policy are
as before. -/
def ask (ctx : Context) (r : Reference) : Evaluation Verdict := do
  let before ← Evaluation.get
  match ← ctx.visit r with
  | .absent | .refused => pure .unmatched
  | .ran callee flow =>
    Evaluation.modify fun env =>
      { env with defaultAction := before.defaultAction, defaultPolicy := before.defaultPolicy }
    Evaluation.report [.event (.callEvaluated ctx.policy callee flow.verdict)]
    pure flow.verdict

/-- Asks policies in order until one gives a definite verdict. -/
def askFirst (ctx : Context) : List Reference → Evaluation Verdict
  | [] => pure .unmatched
  | r :: rs => do
    let v ← ctx.ask r
    if v.isDefinite then pure v else askFirst ctx rs

/-- Asks policies in order as long as they match. -/
def askAll (ctx : Context) : List Reference → Evaluation Bool
  | [] => pure true
  | r :: rs => do
    let v ← ctx.ask r
    if v.isTrue then askAll ctx rs else pure false

end Context

namespace Condition

mutual

/-- The verdict of a condition. -/
def judge (ctx : Context) : Condition → Evaluation Verdict
  | .literal b => pure (.matched b)
  | .test p => do
    let env ← Evaluation.get
    pure (.matched (p.holds env.route))
  | .not c => do
    let v ← judge ctx c
    pure (.matched (!v.isTrue))
  | .all cs => do
    let vs ← judgeEach ctx cs
    pure (.matched (vs.all Verdict.isTrue))
  | .any cs => do
    let vs ← judgeEach ctx cs
    pure (.matched (vs.any Verdict.isTrue))
  | .firstMatch targets => ctx.askFirst targets
  | .allMatch targets => do
    if targets.isEmpty then pure (.matched false)
    else
      let b ← ctx.askAll targets
      pure (.matched b)
  | .callPolicy target => ctx.ask target
  | .inCall => pure (.matched ctx.inCall)

/-- The verdicts of several conditions, all of them evaluated in order. -/
def judgeEach (ctx : Context) : List Condition → Evaluation (List Verdict)
  | [] => pure []
  | c :: cs => do
    let v ← judge ctx c
    let vs ← judgeEach ctx cs
    pure (v :: vs)

end

end Condition

/-- The effect of a control statement. -/
def Control.run : Control → Evaluation Flow
  | .exitAccept => pure (.exits .accept)
  | .exitReject => pure (.exits .reject)
  | .returnTrue => pure (.returns (.matched true))
  | .returnFalse => pure (.returns (.matched false))
  | .returnUndecided | .nextPolicy => pure (.returns .unmatched)
  | .defaultAccept => do
    Evaluation.modify fun env => { env with defaultAction := .accept }
    pure .fallsThrough
  | .defaultReject => do
    Evaluation.modify fun env => { env with defaultAction := .reject }
    pure .fallsThrough

namespace Statement

mutual

/-- Runs a statement. -/
def run (ctx : Context) : Statement → Evaluation Flow
  | .branch guard a b => do
    let v ← guard.judge ctx
    if v.isTrue then runAll ctx a else runAll ctx b
  | .write field update => do
    Evaluation.write ctx.policy field update
    pure .fallsThrough
  | .setDefaultPolicy target => do
    match target.link with
    | some id => Evaluation.modify fun env => { env with defaultPolicy := some id }
    | none => pure ()
    pure .fallsThrough
  | .call target => ctx.call target
  | .comment _ => pure .fallsThrough
  | .control kind => kind.run

/-- Runs statements in order until control leaves the list. -/
def runAll (ctx : Context) : List Statement → Evaluation Flow
  | [] => pure .fallsThrough
  | s :: ss => do
    match ← run ctx s with
    | .fallsThrough => runAll ctx ss
    | flow => pure flow

end

end Statement

end RoutePolicy
