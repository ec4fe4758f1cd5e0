import RoutePolicy.Evaluation.Evaluate
import RoutePolicy.Proofs.Evaluation.Laws

/-!
# Running the policies of a table

A run of a policy is a run of its statements in a context of the table: the context knows the name
of the policy, the stack of its callers, and how another policy of the table is entered.

* `Table.context`, `Table.enter` — the context and the way to enter a policy;
* `Table.runPolicy_eq` — a run in these terms, without the recursion over stacks;
* `Table.runFrom_eq` — a top-level run and, by the `Ending` of it, what comes after;
* `Table.evaluate_decides`, `Table.evaluate_fallsTo` — evaluations with one top-level run and with
  two.
-/

set_option autoImplicit false

namespace RoutePolicy

namespace Table

variable (t : Table) (s : Settings)

/-- Enters a policy on behalf of the policy that the stack of callers ends in. -/
def enter (stack : List PolicyId) (policy : String) (id : PolicyId) : Evaluation Entry :=
  match t.get? id with
  | none => pure .absent
  | some callee =>
    if id ∈ stack then do
      Evaluation.report (t.cycleNotices policy (stack ++ [id]))
      pure .refused
    else if s.maxCallDepth ≤ stack.length - 1 then do
      Evaluation.report (depthNotices policy (stack.length - 1))
      pure .refused
    else do
      let flow ← t.runPolicy s (stack ++ [id]) callee
      pure (.ran callee.name flow)

/-- The surroundings of a policy that runs under a stack of callers. -/
def context (stack : List PolicyId) (policy : String) : Context where
  policy := policy
  inCall := 0 < stack.length - 1
  enter := t.enter s stack policy

theorem runPolicy_eq (stack : List PolicyId) (p : Policy) :
    t.runPolicy s stack p = Statement.runAll (t.context s stack p.name) p.statements := by
  rw [runPolicy]
  simp only [context]
  congr 2
  funext id
  unfold enter
  split
  · rename_i h
    simp only [h]
  · rename_i callee h
    simp only [h]
    split <;> rfl

/-- What comes after a top-level run: the end of the evaluation, the refusal of a default policy
that had its run before, or the top-level run of a default policy. -/
inductive Ending where
  | decides (action : Action)
  | repeats (next : PolicyId)
  | fallsTo (next : PolicyId) (policy : Policy)

/-- What comes after a top-level run that control left in some way. -/
def ending (visited : List PolicyId) (env : Environment) : Flow → Ending
  | .exits action => .decides action
  | .fallsThrough | .returns _ =>
    match env.defaultPolicy with
    | none => .decides env.defaultAction
    | some next =>
      if next ∈ visited then .repeats next
      else match t.get? next with
        | none => .decides env.defaultAction
        | some policy => .fallsTo next policy

/-- A top-level run that does not decide has left a default policy behind. -/
theorem ending_cases (visited : List PolicyId) (env : Environment) (flow : Flow) :
    (∃ action, t.ending visited env flow = .decides action) ∨
      ∃ next, env.defaultPolicy = some next ∧
        (next ∈ visited ∧ t.ending visited env flow = .repeats next ∨
          next ∉ visited ∧ ∃ policy, t.get? next = some policy ∧
            t.ending visited env flow = .fallsTo next policy) := by
  cases flow with
  | exits action => exact .inl ⟨action, rfl⟩
  | _ =>
    unfold ending
    cases hdefault : env.defaultPolicy with
    | none => exact .inl ⟨_, rfl⟩
    | some next =>
      by_cases hv : next ∈ visited
      · exact .inr ⟨next, rfl, .inl ⟨hv, if_pos hv⟩⟩
      · simp only [if_neg hv]
        cases hg : t.get? next with
        | none => exact .inl ⟨_, rfl⟩
        | some policy => exact .inr ⟨next, rfl, .inr ⟨hv, policy, hg, rfl⟩⟩

theorem of_ending_repeats {visited : List PolicyId} {env : Environment} {flow : Flow}
    {next : PolicyId} (h : t.ending visited env flow = .repeats next) :
    next ∈ visited ∧ env.defaultPolicy = some next := by
  rcases t.ending_cases visited env flow with
    ⟨_, h'⟩ | ⟨_, hdefault, ⟨hv, h'⟩ | ⟨_, _, _, h'⟩⟩
  all_goals
    rw [h'] at h
    cases h
  exact ⟨hv, hdefault⟩

theorem of_ending_fallsTo {visited : List PolicyId} {env : Environment} {flow : Flow}
    {next : PolicyId} {policy : Policy} (h : t.ending visited env flow = .fallsTo next policy) :
    next ∉ visited ∧ t.get? next = some policy := by
  rcases t.ending_cases visited env flow with ⟨_, h'⟩ | ⟨_, _, ⟨_, h'⟩ | ⟨hv, _, hg, h'⟩⟩
  all_goals
    rw [h'] at h
    cases h
  exact ⟨hv, hg⟩

/-- What is reported when a top-level run of a policy starts. -/
def startNotices (d : Direction) (policy : String) : List Notice :=
  (initialAction s d policy).1 ++ [.event (.topLevelEvaluation policy d)]

theorem diagnosticsOf_startNotices (d : Direction) (policy : String) :
    diagnosticsOf (startNotices s d policy) = [] := by
  rw [startNotices, initialAction]
  cases s.defaultAction with
  | some action => rfl
  | none => cases d <;> rfl

theorem diagnosticsOf_finish (d : Direction) (policy : String) (action : Action)
    (env : Environment) : diagnosticsOf (finish d policy action env).1 = [] := rfl

/-- The environment at the start of a top-level run of a policy. -/
def freshen (d : Direction) (policy : String) (env : Environment) : Environment :=
  { env with defaultAction := (initialAction s d policy).2, defaultPolicy := none }

theorem runFrom_eq (d : Direction) (visited : List PolicyId) (id : PolicyId) (p : Policy)
    (env : Environment) :
    t.runFrom s d visited id p env =
      match t.runPolicy s [id] p (freshen s d p.name env) with
      | ⟨ran, .error e⟩ => (startNotices s d p.name ++ ran, .error e)
      | ⟨ran, .ok (flow, env')⟩ =>
        match t.ending visited env' flow with
        | .decides action =>
          (startNotices s d p.name ++ ran ++ (finish d p.name action env').1, .ok ⟨action, env'⟩)
        | .repeats next =>
          (startNotices s d p.name ++ ran ++ t.cycleNotices p.name (visited ++ [next])
              ++ (finish d p.name .reject env').1,
            .ok ⟨.reject, env'⟩)
        | .fallsTo next q =>
          let rest := t.runFrom s d (visited ++ [next]) next q env'
          (startNotices s d p.name ++ ran ++ .event (.fallingThrough p.name q.name) :: rest.1,
            rest.2) := by
  rw [runFrom]
  simp only [startNotices, freshen]
  rcases t.runPolicy s [id] p _ with ⟨ran, e | ⟨flow, env'⟩⟩
  · rfl
  · cases flow with
    | exits action => rfl
    | _ =>
      simp only [ending]
      cases env'.defaultPolicy with
      | none => rfl
      | some next =>
        simp only
        split
        · rfl
        · split
          · rename_i hg
            simp only [hg]
            rfl
          · rename_i q hg
            simp only [hg]

/-! ## How evaluations end -/

section

variable {t s} {d : Direction} {visited : List PolicyId} {id : PolicyId} {p : Policy}
  {env after : Environment} {ran : List Notice} {flow : Flow}

/-- The evaluation ends with a top-level run that is decided. -/
theorem runFrom_decides {action : Action}
    (hrun : t.runPolicy s [id] p (freshen s d p.name env) = ⟨ran, .ok (flow, after)⟩)
    (hending : t.ending visited after flow = .decides action) :
    (t.runFrom s d visited id p env).2 = .ok ⟨action, after⟩ ∧
      diagnosticsOf (t.runFrom s d visited id p env).1 = diagnosticsOf ran := by
  rw [runFrom_eq, hrun]
  simp only [hending, diagnosticsOf_append, diagnosticsOf_startNotices, diagnosticsOf_finish,
    List.nil_append, List.append_nil, and_self]

/-- The evaluation ends when the default policy of a top-level run had its run before. -/
theorem runFrom_repeats {next : PolicyId}
    (hrun : t.runPolicy s [id] p (freshen s d p.name env) = ⟨ran, .ok (flow, after)⟩)
    (hending : t.ending visited after flow = .repeats next) :
    (t.runFrom s d visited id p env).2 = .ok ⟨.reject, after⟩ ∧
      diagnosticsOf (t.runFrom s d visited id p env).1 =
        diagnosticsOf ran ++ diagnosticsOf (t.cycleNotices p.name (visited ++ [next])) := by
  rw [runFrom_eq, hrun]
  simp only [hending, diagnosticsOf_append, diagnosticsOf_startNotices, diagnosticsOf_finish,
    List.nil_append, List.append_nil, and_self]

/-- The evaluation goes on with the default policy of a top-level run that leaves the route open. -/
theorem runFrom_fallsTo {next : PolicyId} {q : Policy}
    (hrun : t.runPolicy s [id] p (freshen s d p.name env) = ⟨ran, .ok (flow, after)⟩)
    (hending : t.ending visited after flow = .fallsTo next q) :
    (t.runFrom s d visited id p env).2 = (t.runFrom s d (visited ++ [next]) next q after).2 ∧
      diagnosticsOf (t.runFrom s d visited id p env).1 =
        diagnosticsOf ran ++
          diagnosticsOf (t.runFrom s d (visited ++ [next]) next q after).1 := by
  rw [runFrom_eq, hrun]
  simp only [hending, diagnosticsOf_append, diagnosticsOf_startNotices, diagnosticsOf_event,
    List.nil_append, and_self]

variable {policy : String} {route : Route}

/-- An evaluation whose only top-level run is decided. -/
theorem evaluate_decides {action : Action} (hid : t.idOf? policy = some id)
    (hg : t.get? id = some p)
    (hrun : t.runPolicy s [id] p (freshen s d p.name (startOf route)) = ⟨ran, .ok (flow, after)⟩)
    (hending : t.ending [id] after flow = .decides action) :
    (t.evaluate s policy route d).2 = .ok ⟨action, after.overlay⟩ ∧
      diagnosticsOf (t.evaluate s policy route d).1 = diagnosticsOf ran := by
  obtain ⟨hresult, hdiagnostics⟩ := runFrom_decides hrun hending
  unfold evaluate
  simp only [hid, hg, hresult]
  exact ⟨rfl, hdiagnostics⟩

/-- An evaluation that the default policy of its first top-level run decides. -/
theorem evaluate_fallsTo {next : PolicyId} {q : Policy} {action : Action} {last : Environment}
    {ran' : List Notice} (hid : t.idOf? policy = some id) (hg : t.get? id = some p)
    (hrun : t.runPolicy s [id] p (freshen s d p.name (startOf route)) = ⟨ran, .ok (flow, after)⟩)
    (hending : t.ending [id] after flow = .fallsTo next q)
    (hnext : t.runPolicy s [next] q (freshen s d q.name after) =
      ⟨ran', .ok (.exits action, last)⟩) :
    (t.evaluate s policy route d).2 = .ok ⟨action, last.overlay⟩ ∧
      diagnosticsOf (t.evaluate s policy route d).1 = diagnosticsOf ran ++ diagnosticsOf ran' := by
  obtain ⟨hresult, hdiagnostics⟩ := runFrom_fallsTo hrun hending
  have hexits : t.ending ([id] ++ [next]) last (.exits action) = .decides action := rfl
  obtain ⟨hlast, hlastDiagnostics⟩ := runFrom_decides hnext hexits
  unfold evaluate
  simp only [hid, hg, hresult, hlast, hdiagnostics, hlastDiagnostics, and_true]
  rfl

end

end Table

end RoutePolicy
