import RoutePolicy.Evaluation.Evaluate

/-!
# Evaluation by name

How the policies of a registry evaluate a route before anything is frozen: every target is looked
up by its name at the moment it is needed, and a cycle is a name that is on the stack of names
already.  There are no places and no links.

* An undefined target of a call or of a default policy is passed over; one that is asked for a
  verdict gives none.
* All operands of a connective are evaluated.  The members of a chain are asked up to the one that
  settles it.
* A policy that is asked keeps its writes, but the default action and the default policy are as
  before.

`Registry.evaluateByName` gives the decision or the failure, and the diagnostics;
`Registry.Unlinked` is the condition under which names are all that references hold.
-/

set_option autoImplicit false

namespace RoutePolicy

namespace ByName

/-- What changes while policies run, with the default policy under its name. -/
structure State where
  route : Route
  overlay : Overlay := .empty
  defaultAction : Action
  defaultPolicy : Option String := none

/-- A computation of the reference interpreter.  The diagnostics are a log that a failure does not
take back. -/
abbrev Interpretation : Type → Type :=
  StateT State (ExceptT MalformedPolicy (StateM (List Diagnostic)))

section

variable {α β : Type}

theorem pure_apply (a : α) (st : State) (log : List Diagnostic) :
    (pure a : Interpretation α) st log = (.ok (a, st), log) := rfl

theorem get_apply (st : State) (log : List Diagnostic) :
    (get : Interpretation State) st log = (.ok (st, st), log) := rfl

theorem modify_apply (f : State → State) (st : State) (log : List Diagnostic) :
    (modify f : Interpretation Unit) st log = (.ok ((), f st), log) := rfl

theorem bind_apply (x : Interpretation α) (f : α → Interpretation β) (st : State)
    (log : List Diagnostic) :
    (x >>= f) st log = match x st log with
      | (.ok (a, st'), log') => f a st' log'
      | (.error e, log') => (.error e, log') := by
  simp only [bind, StateT.bind, ExceptT.bind, ExceptT.mk, ExceptT.bindCont]
  rcases x st log with ⟨e | ⟨a, st'⟩, log'⟩ <;> rfl

/-- Records a diagnostic. -/
def record (d : Diagnostic) : Interpretation Unit := modifyThe (List Diagnostic) (· ++ [d])

theorem record_apply (d : Diagnostic) (st : State) (log : List Diagnostic) :
    record d st log = (.ok ((), st), log ++ [d]) := rfl

end

/-- The diagnostic about a policy that would run while it is running already. -/
def cycle (policy : String) (path : List String) : Diagnostic :=
  { policy, finding := .callCycle path }

/-- What a running policy knows about its surroundings. -/
structure Caller where
  policy : String
  inCall : Bool
  defined : String → Bool
  enter : String → Interpretation Entry

section

variable (c : Caller)

/-- Runs a policy in place. -/
def call (name : String) : Interpretation Flow := do
  match ← c.enter name with
  | .absent => pure .fallsThrough
  | .refused => pure (.exits .reject)
  | .ran _ (.exits action) => pure (.exits action)
  | .ran _ _ => pure .fallsThrough

/-- Runs a policy for its verdict. -/
def ask (name : String) : Interpretation Verdict := do
  let before ← get
  match ← c.enter name with
  | .absent | .refused => pure .unmatched
  | .ran _ flow =>
    modify fun st : State =>
      { st with defaultAction := before.defaultAction, defaultPolicy := before.defaultPolicy }
    pure flow.verdict

/-- Whether the first definite verdict of several policies is true. -/
def askFirst : List Reference → Interpretation Bool
  | [] => pure false
  | r :: rs => do
    match ← ask c r.name with
    | .matched b => pure b
    | .unmatched => askFirst rs

/-- Whether the verdicts of several policies are all true. -/
def askAll : List Reference → Interpretation Bool
  | [] => pure true
  | r :: rs => do
    match ← ask c r.name with
    | .matched true => askAll rs
    | _ => pure false

mutual

/-- Whether a condition is true. -/
def holds : Condition → Interpretation Bool
  | .literal b => pure b
  | .test p => do
    let st ← get
    pure (p.holds st.route)
  | .not a => do
    let b ← holds a
    pure (!b)
  | .all cs => holdEach true cs
  | .any cs => holdEach false cs
  | .firstMatch targets => askFirst c targets
  | .allMatch [] => pure false
  | .allMatch (r :: rs) => askAll c (r :: rs)
  | .callPolicy target => do
    let v ← ask c target.name
    pure v.isTrue
  | .inCall => pure c.inCall

/-- The value of a connective, of which every operand is evaluated: a conjunction when the neutral
value is true. -/
def holdEach (neutral : Bool) : List Condition → Interpretation Bool
  | [] => pure neutral
  | a :: cs => do
    let b ← holds a
    let bs ← holdEach neutral cs
    pure (if neutral then b && bs else b || bs)

end

/-- Makes a write. -/
def write (field : RouteField) (update : Update) : Interpretation Unit := do
  let st ← get
  match update.compute (st.route.get field) with
  | none => throw ⟨c.policy, .updateMisfit update field⟩
  | some value =>
    match st.route.write field value with
    | .error misfit => throw ⟨c.policy, .valueMisfit misfit⟩
    | .ok route => set { st with route, overlay := st.overlay.set field value }

/-- The effect of a control statement. -/
def control : Control → Interpretation Flow
  | .exitAccept => pure (.exits .accept)
  | .exitReject => pure (.exits .reject)
  | .returnTrue => pure (.returns (.matched true))
  | .returnFalse => pure (.returns (.matched false))
  | .returnUndecided | .nextPolicy => pure (.returns .unmatched)
  | .defaultAccept => do
    modify fun st : State => { st with defaultAction := .accept }
    pure .fallsThrough
  | .defaultReject => do
    modify fun st : State => { st with defaultAction := .reject }
    pure .fallsThrough

mutual

/-- Runs a statement. -/
def run : Statement → Interpretation Flow
  | .branch guard a b => do
    if ← holds c guard then runAll a else runAll b
  | .write field update => do
    write c field update
    pure .fallsThrough
  | .setDefaultPolicy target => do
    if c.defined target.name then
      modify fun st : State => { st with defaultPolicy := some target.name }
    pure .fallsThrough
  | .call target => call c target.name
  | .comment _ => pure .fallsThrough
  | .control kind => control kind

/-- Runs statements in order until control leaves the list. -/
def runAll : List Statement → Interpretation Flow
  | [] => pure .fallsThrough
  | s :: ss => do
    match ← run s with
    | .fallsThrough => runAll ss
    | flow => pure flow

end

end

end ByName

namespace Registry

open ByName

variable (r : Registry) (s : Settings)

/-- No reference in a policy of the registry is linked. -/
def Unlinked : Prop :=
  ∀ p ∈ r.policies, ∀ t ∈ Statement.referencesAll p.statements, t.link = none

instance : Decidable r.Unlinked :=
  inferInstanceAs (Decidable (∀ p ∈ r.policies, ∀ t ∈ Statement.referencesAll p.statements,
    t.link = none))

/-- The number of policies whose names are not in a list. -/
def unvisited (visited : List String) : Nat :=
  (r.names.filter fun name => !visited.contains name).length

theorem mem_names_of_get? {r : Registry} {name : String} {p : Policy}
    (h : r.get? name = some p) : name ∈ r.names :=
  List.mem_map.mpr ⟨p, List.mem_of_find?_eq_some h, by simpa using List.find?_some h⟩

theorem unvisited_append_lt {r : Registry} {visited : List String} {name : String} {p : Policy}
    (hn : name ∉ visited) (hg : r.get? name = some p) :
    r.unvisited (visited ++ [name]) < r.unvisited visited := by
  have hfilter : (r.names.filter fun n => !(visited ++ [name]).contains n) =
      (r.names.filter fun n => !visited.contains n).filter (· != name) := by
    rw [List.filter_filter]
    refine List.filter_congr fun n _ => ?_
    rw [Bool.eq_iff_iff]
    simp [and_comm]
  rw [unvisited, unvisited, hfilter]
  refine List.length_filter_lt_length_iff_exists.mpr ⟨name, ?_, by simp⟩
  exact List.mem_filter.mpr ⟨mem_names_of_get? hg, by simpa using hn⟩

/-- Runs a policy under a stack of callers that ends in the policy itself. -/
def runByName (stack : List String) (p : Policy) : Interpretation Flow :=
  let depth := stack.length - 1
  ByName.runAll
    { policy := p.name
      inCall := 0 < depth
      defined := r.contains
      enter := fun name =>
        match _hg : r.get? name with
        | none => pure .absent
        | some callee =>
          if _hs : name ∈ stack then do
            record (cycle p.name (stack ++ [name]))
            pure .refused
          else if s.maxCallDepth ≤ depth then do
            record { policy := p.name, finding := .callDepthExceeded depth }
            pure .refused
          else do
            let flow ← runByName (stack ++ [name]) callee
            pure (.ran name flow) }
    p.statements
termination_by r.unvisited stack
decreasing_by exact unvisited_append_lt _hs _hg

/-- Enters a policy on behalf of the policy that the stack of callers ends in. -/
def enterByName (stack : List String) (policy name : String) : Interpretation Entry :=
  match r.get? name with
  | none => pure .absent
  | some callee =>
    if name ∈ stack then do
      record (cycle policy (stack ++ [name]))
      pure .refused
    else if s.maxCallDepth ≤ stack.length - 1 then do
      record { policy, finding := .callDepthExceeded (stack.length - 1) }
      pure .refused
    else do
      let flow ← r.runByName s (stack ++ [name]) callee
      pure (.ran name flow)

/-- The surroundings of a policy that runs under a stack of callers. -/
def callerByName (stack : List String) (policy : String) : ByName.Caller where
  policy := policy
  inCall := 0 < stack.length - 1
  defined := r.contains
  enter := r.enterByName s stack policy

theorem runByName_eq (stack : List String) (p : Policy) :
    r.runByName s stack p = ByName.runAll (r.callerByName s stack p.name) p.statements := by
  rw [runByName]
  simp only [callerByName]
  congr 2
  funext name
  unfold enterByName
  split
  · rename_i h
    simp only [h]
  · rename_i callee h
    simp only [h]
    split <;> rfl

/-- A top-level run of a policy and of the default policies after it.  `visited` lists the names
of the policies that had a top-level run, up to and including this one. -/
def runFromByName (d : Direction) (visited : List String) (p : Policy) :
    Interpretation Action := do
  modify fun st : State =>
    { st with defaultAction := s.defaultAction.getD d.conventionalAction, defaultPolicy := none }
  match ← r.runByName s [p.name] p with
  | .exits action => pure action
  | _ =>
    let st ← get
    match st.defaultPolicy with
    | none => pure st.defaultAction
    | some next =>
      if _hv : next ∈ visited then
        record (cycle p.name (visited ++ [next]))
        pure .reject
      else
        match _hg : r.get? next with
        | none => pure st.defaultAction
        | some q => runFromByName d (visited ++ [next]) q
termination_by r.unvisited visited
decreasing_by exact unvisited_append_lt _hv _hg

/-- What comes after a top-level run that control left in some way. -/
def endByName (d : Direction) (visited : List String) (p : Policy) : Flow → Interpretation Action
  | .exits action => pure action
  | .fallsThrough | .returns _ => do
    let st ← get
    match st.defaultPolicy with
    | none => pure st.defaultAction
    | some next =>
      if next ∈ visited then
        record (cycle p.name (visited ++ [next]))
        pure .reject
      else
        match r.get? next with
        | none => pure st.defaultAction
        | some q => r.runFromByName s d (visited ++ [next]) q

theorem runFromByName_eq (d : Direction) (visited : List String) (p : Policy) :
    r.runFromByName s d visited p = (do
      modify fun st : State =>
        { st with
          defaultAction := s.defaultAction.getD d.conventionalAction
          defaultPolicy := none }
      let flow ← r.runByName s [p.name] p
      r.endByName s d visited p flow) := by
  rw [runFromByName]
  refine bind_congr fun _ => bind_congr fun flow => ?_
  cases flow with
  | exits action => rfl
  | _ =>
    refine bind_congr fun st => ?_
    cases st.defaultPolicy with
    | none => rfl
    | some next =>
      simp only
      split
      · rfl
      · split <;> rename_i h <;> simp only [h]

/-- Evaluates the policy of a name on a route: the decision or the failure, and the diagnostics. -/
def evaluateByName (policy : String) (route : Route) (d : Direction) :
    Except MalformedPolicy Decision × List Diagnostic :=
  match r.get? policy with
  | none =>
    (.ok ⟨.reject, .empty⟩,
      [{ policy, finding := .undefinedReference .policy policy }])
  | some p =>
    let (result, log) := r.runFromByName s d [policy] p { route, defaultAction := .reject } []
    (result.map fun (action, st) => ⟨action, st.overlay⟩, log)

end Registry

end RoutePolicy
