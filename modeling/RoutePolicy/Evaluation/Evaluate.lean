import RoutePolicy.Evaluation.Interpreter
import RoutePolicy.Table

/-!
# Evaluating a policy of a table

A policy may not be entered while it is running, nor when calls are nested too deep already.  Both
refusals are reported.  At the end of a policy that nothing has decided, the default policy takes
over; one that ran before is not entered again.

* `Table.runPolicy` — runs a policy under a stack of callers;
* `Table.runFrom` — a top-level run and the default policies after it;
* `Table.evaluate` — the decision of the policy of a given name.

Neither recursion has a bound of its own.  A stack never holds a policy twice, so each call leaves
fewer policies that are `unvisited`; the same holds for the chain of default policies.
-/

set_option autoImplicit false

namespace RoutePolicy

/-- The nesting of calls that is allowed unless the caller says otherwise. -/
def defaultCallDepth : Nat := 64

/-- Settings of an evaluation; without a default action the convention of the direction holds. -/
structure Settings where
  defaultAction : Option Action := none
  maxCallDepth : Nat := defaultCallDepth
  deriving DecidableEq, Repr

namespace Table

/-- The number of places of a table that are not in a list. -/
def unvisited (t : Table) (visited : List PolicyId) : Nat :=
  (List.range t.size).countP fun i => !visited.contains ⟨i⟩

theorem unvisited_append_lt {t : Table} {visited : List PolicyId} {id : PolicyId}
    (hn : id ∉ visited) (hl : id.index < t.size) :
    t.unvisited (visited ++ [id]) < t.unvisited visited := by
  have hmono : ∀ i : Nat, (!(visited ++ [id]).contains (⟨i⟩ : PolicyId)) = true →
      (!visited.contains (⟨i⟩ : PolicyId)) = true := by
    intro i hi
    simp at hi ⊢
    exact hi.1
  unfold unvisited
  have hsplit : List.range t.size =
      List.range id.index ++
        id.index :: (List.range (t.size - id.index - 1)).map (· + (id.index + 1)) := by
    have h1 : t.size = id.index + ((t.size - id.index - 1) + 1) := by omega
    conv => lhs; rw [h1, List.range_add, List.range_succ_eq_map]
    simp [List.map_map, Function.comp_def, Nat.add_comm, Nat.add_left_comm]
  rw [hsplit, List.countP_append, List.countP_append, List.countP_cons, List.countP_cons]
  have ha := List.countP_mono_left (l := List.range id.index) (fun i _ => hmono i)
  have hb := List.countP_mono_left
    (l := (List.range (t.size - id.index - 1)).map (· + (id.index + 1))) (fun i _ => hmono i)
  have hin : (!(visited ++ [id]).contains (⟨id.index⟩ : PolicyId)) = false := by simp
  have hout : (!visited.contains (⟨id.index⟩ : PolicyId)) = true := by simpa using hn
  rw [hin, hout]
  simp only [Bool.false_eq_true, if_false, if_true]
  omega

theorem index_lt_of_get? {t : Table} {id : PolicyId} {p : Policy} (h : t.get? id = some p) :
    id.index < t.size := by
  unfold get? at h
  exact (List.getElem?_eq_some_iff.mp h).1

/-- What is reported when a policy would run while it is running already. -/
def cycleNotices (t : Table) (policy : String) (path : List PolicyId) : List Notice :=
  let names := path.map t.nameOf
  [.event (.callCycle policy names), .diagnostic { policy, finding := .callCycle names }]

/-- What is reported when calls nest too deep. -/
def depthNotices (policy : String) (depth : Nat) : List Notice :=
  [.event (.callDepthExceeded policy depth),
   .diagnostic { policy, finding := .callDepthExceeded depth }]

/-- Runs a policy under a stack of callers that ends in the policy itself.

A place outside the table would count as absent.  None is looked up where the links of the table
lead to its places (`Table.Closed.get?_target`), as they do in every table that a freeze can give
(`Registry.closed_table_iff`). -/
def runPolicy (t : Table) (s : Settings) (stack : List PolicyId) (p : Policy) : Evaluation Flow :=
  let depth := stack.length - 1
  Statement.runAll
    { policy := p.name
      inCall := 0 < depth
      enter := fun id =>
        match _hg : t.get? id with
        | none => pure .absent
        | some callee =>
          if _hs : id ∈ stack then do
            Evaluation.report (t.cycleNotices p.name (stack ++ [id]))
            pure .refused
          else if s.maxCallDepth ≤ depth then do
            Evaluation.report (depthNotices p.name depth)
            pure .refused
          else do
            let flow ← runPolicy t s (stack ++ [id]) callee
            pure (.ran callee.name flow) }
    p.statements
termination_by t.unvisited stack
decreasing_by exact unvisited_append_lt _hs (index_lt_of_get? _hg)

/-- The default action at the start of a top-level run of a policy, and what is reported when it
is the convention that lets routes in. -/
def initialAction (s : Settings) (d : Direction) (policy : String) : List Notice × Action :=
  match s.defaultAction with
  | some action => ([], action)
  | none =>
    (if d = .inbound then [.event (.conventionalDefault policy)] else [], d.conventionalAction)

/-- The end of an evaluation: what is reported, the action and the final environment. -/
structure Completion where
  action : Action
  environment : Environment
  deriving DecidableEq

/-- Ends an evaluation in the top-level run of a policy. -/
def finish (d : Direction) (policy : String) (action : Action) (env : Environment) :
    List Notice × Completion :=
  ([.event (.policyEvaluated policy d action env.overlay.size)], ⟨action, env⟩)

/-- A top-level run of a policy and of the default policies after it.  `visited` lists the policies
that had a top-level run, up to and including this one.  A default policy outside the table would
count as none; like a call, it never leads there in a table that a freeze can give. -/
def runFrom (t : Table) (s : Settings) (d : Direction) (visited : List PolicyId) (id : PolicyId)
    (p : Policy) (env : Environment) : List Notice × Except MalformedPolicy Completion :=
  let (conventional, action) := initialAction s d p.name
  let started := conventional ++ [.event (.topLevelEvaluation p.name d)]
  match t.runPolicy s [id] p { env with defaultAction := action, defaultPolicy := none } with
  | ⟨ran, .error e⟩ => (started ++ ran, .error e)
  | ⟨ran, .ok (.exits result, env)⟩ =>
    let (decided, completion) := finish d p.name result env
    (started ++ ran ++ decided, .ok completion)
  | ⟨ran, .ok (_, env)⟩ =>
    match env.defaultPolicy with
    | none =>
      let (decided, completion) := finish d p.name env.defaultAction env
      (started ++ ran ++ decided, .ok completion)
    | some next =>
      if _hv : next ∈ visited then
        let (decided, completion) := finish d p.name .reject env
        (started ++ ran ++ t.cycleNotices p.name (visited ++ [next]) ++ decided, .ok completion)
      else
        match _hg : t.get? next with
        | none =>
          let (decided, completion) := finish d p.name env.defaultAction env
          (started ++ ran ++ decided, .ok completion)
        | some q =>
          let (rest, result) := runFrom t s d (visited ++ [next]) next q env
          (started ++ ran ++ .event (.fallingThrough p.name q.name) :: rest, result)
termination_by t.unvisited visited
decreasing_by exact unvisited_append_lt _hv (index_lt_of_get? _hg)

/-- The start of every evaluation. -/
def startOf (r : Route) : Environment := { route := r, defaultAction := .reject }

/-- Evaluates the policy of a name on a route. -/
def evaluate (t : Table) (s : Settings) (policy : String) (r : Route) (d : Direction) :
    List Notice × Except MalformedPolicy Decision :=
  match t.idOf? policy with
  | none =>
    ([.event (.undefinedPolicyRejects policy),
      .diagnostic { policy, finding := .undefinedReference .policy policy }],
     .ok ⟨.reject, .empty⟩)
  | some id =>
    match t.get? id with
    | none => ([], .ok ⟨.reject, .empty⟩)
    | some p =>
      let (notices, result) := t.runFrom s d [id] id p (startOf r)
      (notices, result.map fun c => ⟨c.action, c.environment.overlay⟩)

end Table

end RoutePolicy
