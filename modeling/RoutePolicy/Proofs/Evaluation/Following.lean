import RoutePolicy.Proofs.Evaluation.Attempts
import RoutePolicy.Proofs.Evaluation.WorkingRoute
import RoutePolicy.Proofs.Table.Edges
import Mathlib.Data.List.Chain

/-!
# An evaluation follows the edges of its table

Whenever a policy is entered there is a reference to it in the policy that runs.  So the stack is a
path of calls, and each default policy that takes over was named by the policy of the top-level run
before it, or by one that this policy came to by call statements only: what happens to the default
policy while a policy is asked for its verdict is undone.

* `OnFlow.Follows`, `OnVerdict.Follows` — what waits is made of parts of the policies on the stack,
  each of which calls the next one, and the default policy that the top-level run will be left with
  is one that it can come to;
* `Machine.Running.Follows` — the invariant, kept by every step (`Machine.follows_step`) and so true
  at every moment (`Machine.follows_after`).
-/

set_option autoImplicit false

namespace RoutePolicy

/-! ## What waits -/

section

variable (t : Table) (root : PolicyId)

mutual

/-- What waits while the policy at `i` runs is made of parts of this policy and, behind a call of
it, of parts of the policy that called it, and so on down to the policy of the top-level run.  When
control is back there, `current` or the default policy from before a policy was asked is one that
the top-level run can come to. -/
def OnFlow.Follows (i : PolicyId) (below : List PolicyId) (current : Option PolicyId) :
    OnFlow → Prop
  | .topLevel => i = root ∧ below = [] ∧ ∀ j, current = some j → t.FallsTo root j
  | .rest ss next => t.Contains i (Statement.occurrencesAll ss) ∧ next.Follows i below current
  | .called caller next =>
    ∃ j front, below = front ++ [j] ∧ t.nameOf j = caller ∧ t.CallsInPlace j i ∧
      next.Follows j front current
  | .asked caller _ _ saved next =>
    ∃ j front, below = front ++ [j] ∧ t.nameOf j = caller ∧ t.Calls j i ∧
      next.Follows j front saved

/-- What waits for a verdict is made of parts of the policy at `i` and of its callers. -/
def OnVerdict.Follows (i : PolicyId) (below : List PolicyId) (current : Option PolicyId) :
    OnVerdict → Prop
  | .branch a b next =>
    t.Contains i (Statement.occurrencesAll a) ∧ t.Contains i (Statement.occurrencesAll b) ∧
      next.Follows i below current
  | .negate next => next.Follows i below current
  | .operands _ _ cs next =>
    t.Contains i (Condition.occurrencesAll cs) ∧ next.Follows i below current
  | .firstOf rs next =>
    t.Contains i (Condition.firstMatch rs).occurrences ∧ next.Follows i below current
  | .allOf rs next =>
    t.Contains i (Condition.allMatch rs).occurrences ∧ next.Follows i below current

end

end

theorem isChain_concat {α : Type} {R : α → α → Prop} {as : List α} {a b : α}
    (h : as.IsChain R) (hlast : as.getLast? = some a) (hab : R a b) : (as ++ [b]).IsChain R := by
  refine List.isChain_append.mpr ⟨h, .singleton b, ?_⟩
  rw [hlast]
  rintro _ ⟨⟩ _ ⟨⟩
  exact hab

section

variable {t : Table} {root : PolicyId}

mutual

theorem OnFlow.isChain_of_follows : (next : OnFlow) → {i : PolicyId} → {below : List PolicyId} →
    {current : Option PolicyId} → next.Follows t root i below current →
    (below ++ [i]).IsChain t.Calls
  | .topLevel, i, _, _, ⟨_, hbelow, _⟩ => by
    rw [hbelow]
    exact .singleton i
  | .rest _ next, _, _, _, h => next.isChain_of_follows h.2
  | .called _ next, _, _, _, ⟨_, _, hbelow, _, hcalls, hnext⟩ => by
    rw [hbelow]
    exact isChain_concat (next.isChain_of_follows hnext) List.getLast?_concat
      (hcalls.mono fun _ hrole => by simp [hrole])
  | .asked _ _ _ _ next, _, _, _, ⟨_, _, hbelow, _, hcalls, hnext⟩ => by
    rw [hbelow]
    exact isChain_concat (next.isChain_of_follows hnext) List.getLast?_concat hcalls

theorem OnVerdict.isChain_of_follows : (next : OnVerdict) → {i : PolicyId} →
    {below : List PolicyId} → {current : Option PolicyId} →
    next.Follows t root i below current → (below ++ [i]).IsChain t.Calls
  | .branch _ _ next, _, _, _, h => next.isChain_of_follows h.2.2
  | .negate next, _, _, _, h => next.isChain_of_follows h
  | .operands _ _ _ next, _, _, _, h => next.isChain_of_follows h.2
  | .firstOf _ next, _, _, _, h => next.isChain_of_follows h.2
  | .allOf _ next, _, _, _, h => next.isChain_of_follows h.2

end

/-- The policy that runs may name another default policy.  It lasts until the end of the top-level
run only where the policy was come to by call statements. -/
theorem OnFlow.follows_some {id : PolicyId} : (next : OnFlow) → {i : PolicyId} →
    {below : List PolicyId} → {current : Option PolicyId} →
    next.Follows t root i below current → t.FallsTo i id → next.Follows t root i below (some id)
  | .topLevel, _, _, _, ⟨hroot, hbelow, _⟩, hfalls =>
    ⟨hroot, hbelow, fun _ hj => Option.some.inj hj ▸ hroot ▸ hfalls⟩
  | .rest _ next, _, _, _, ⟨hparts, hnext⟩, hfalls => ⟨hparts, next.follows_some hnext hfalls⟩
  | .called _ next, _, _, _, ⟨j, front, hbelow, hname, hcalls, hnext⟩, ⟨k, hpath, hsets⟩ =>
    ⟨j, front, hbelow, hname, hcalls, next.follows_some hnext ⟨k, hpath.head hcalls, hsets⟩⟩
  | .asked _ _ _ _ _, _, _, _, h, _ => h

end

namespace Machine

/-! ## The invariant -/

section

variable (t : Table) (root i : PolicyId) (below : List PolicyId)

/-- What happens next is a part of the policy at `i`, and so is what waits. -/
def Control.Follows (current : Option PolicyId) : Control → Prop
  | .runs ss next =>
    t.Contains i (Statement.occurrencesAll ss) ∧ next.Follows t root i below current
  | .judges c next => t.Contains i c.occurrences ∧ next.Follows t root i below current
  | .leaves _ next => next.Follows t root i below current
  | .gives _ next => next.Follows t root i below current

/-- The policy at `i` runs, on behalf of those below it on the stack, in the top-level run of the
policy at `root`; and each policy of a top-level run could come to the next one as its default
policy. -/
structure Running.FollowsFrom (st : Running) : Prop where
  callStack_eq : st.callStack = below ++ [i]
  policy_eq : t.nameOf i = st.policy
  last_eq : st.visited.getLast? = some root
  falls : st.visited.IsChain t.FallsTo
  control : st.control.Follows t root i below st.environment.defaultPolicy

/-- The evaluation has followed the edges of the table. -/
def Running.Follows (st : Running) : Prop :=
  ∃ root i below, st.FollowsFrom t root i below

/-- The moment after a step, if there is one, has followed the edges of the table. -/
def State.Follows : State → Prop
  | .running st => st.Follows t
  | .halted _ _ => True

end

section

variable {t : Table} {s : Settings} {d : Direction} {st : Running} {root i : PolicyId}
  {below : List PolicyId}

/-- The stack is a path of calls. -/
theorem Running.FollowsFrom.isChain (h : st.FollowsFrom t root i below) :
    st.callStack.IsChain t.Calls := by
  have hfollows := h.control
  rw [h.callStack_eq]
  cases hcontrol : st.control with
  | runs ss next =>
    rw [hcontrol] at hfollows
    exact next.isChain_of_follows hfollows.2
  | judges c next =>
    rw [hcontrol] at hfollows
    exact next.isChain_of_follows hfollows.2
  | leaves flow next =>
    rw [hcontrol] at hfollows
    exact next.isChain_of_follows hfollows
  | gives v next =>
    rw [hcontrol] at hfollows
    exact next.isChain_of_follows hfollows

theorem follows_topLevel {visited : List PolicyId} {id : PolicyId} {p : Policy}
    (hg : t.get? id = some p) (hlast : visited.getLast? = some id)
    (hfalls : visited.IsChain t.FallsTo) (env : Environment) (notices : List Notice) :
    (topLevel s d visited id p env notices).Follows t := by
  refine ⟨id, id, [], rfl, ?_, hlast, hfalls, ⟨p, hg, List.Subset.refl _⟩, rfl, rfl, ?_⟩
  · rw [Table.nameOf, hg]
    rfl
  · intro j hj
    cases hj

theorem Running.FollowsFrom.keep (h : st.FollowsFrom t root i below) {control : Control}
    {env : Environment} (notices : List Notice)
    (hcontrol : control.Follows t root i below env.defaultPolicy) :
    Running.Follows t { st with control, environment := env, notices } :=
  ⟨root, i, below, h.callStack_eq, h.policy_eq, h.last_eq, h.falls, hcontrol⟩

theorem follows_nextOperand (neutral value : Bool) {next : OnVerdict} {cs : List Condition}
    {current : Option PolicyId} (hcs : t.Contains i (Condition.occurrencesAll cs))
    (hnext : next.Follows t root i below current) :
    (nextOperand neutral value next cs).Follows t root i below current := by
  cases cs with
  | nil => exact hnext
  | cons c cs =>
    rw [Condition.occurrencesAll] at hcs
    exact ⟨hcs.append.1, hcs.append.2, hnext⟩

theorem follows_takeVerdict (v : Verdict) {next : OnVerdict} {current : Option PolicyId}
    (hnext : next.Follows t root i below current) :
    (takeVerdict v next).Follows t root i below current := by
  cases next with
  | branch a b next =>
    obtain ⟨ha, hb, hnext⟩ := hnext
    rw [takeVerdict]
    split
    · exact ⟨ha, hnext⟩
    · exact ⟨hb, hnext⟩
  | negate next => exact hnext
  | operands neutral value cs next => exact follows_nextOperand _ _ hnext.1 hnext.2
  | firstOf rs next =>
    rw [takeVerdict]
    split
    · exact hnext.2
    · exact hnext
  | allOf rs next =>
    cases rs with
    | nil => exact hnext.2
    | cons r rs =>
      rw [takeVerdict]
      split
      · exact hnext
      · exact hnext.2

/-- Entering a policy: the references that are followed are edges of the table. -/
theorem follows_enter (h : st.FollowsFrom t root i below) (r : Reference)
    {waits : Policy → OnFlow} {absent refused : Control}
    (hwaits : ∀ id callee, r.link = some id →
      (waits callee).Follows t root id (below ++ [i]) st.environment.defaultPolicy)
    (habsent : absent.Follows t root i below st.environment.defaultPolicy)
    (hrefused : refused.Follows t root i below st.environment.defaultPolicy) :
    (enter t s st r waits absent refused).Follows t := by
  have hentered := entered_enter t s st r waits absent refused
  generalize enter t s st r waits absent refused = st' at hentered ⊢
  cases hentered with
  | absent => exact h.keep _ habsent
  | cycle => exact h.keep _ hrefused
  | depth => exact h.keep _ hrefused
  | runs id callee hlink hg =>
    refine ⟨root, id, below ++ [i], ?_, ?_, h.last_eq, h.falls, ?_, hwaits id callee hlink⟩
    · simp only [h.callStack_eq]
    · rw [Table.nameOf, hg]
    · exact ⟨callee, hg, List.Subset.refl _⟩

theorem follows_ask (h : st.FollowsFrom t root i below) {o : Occurrence} {os : List Occurrence}
    (ho : t.Contains i (o :: os)) (hrole : o.role ≠ .defaultPolicy) {next : OnVerdict}
    (hnext : next.Follows t root i below st.environment.defaultPolicy) :
    (ask t s st o.target next).Follows t := by
  refine follows_enter h o.target (fun id callee hlink => ?_) hnext hnext
  exact ⟨i, below, rfl, h.policy_eq, ho.refers List.mem_cons_self hrole hlink, hnext⟩

theorem follows_proceed (h : st.FollowsFrom t root i below) {α : Type} {o : Outcome α}
    {next : α → Control}
    (hnext : ∀ a env, o.result = .ok (a, env) →
      (next a).Follows t root i below env.defaultPolicy) : (st.proceed o next).Follows t := by
  unfold Running.proceed
  split
  · rename_i a env hok
    exact h.keep _ (hnext a env hok)
  · trivial

theorem follows_runNext (h : st.FollowsFrom t root i below) {statement : Statement}
    (hparts : t.Contains i statement.occurrences) {next : OnFlow}
    (hnext : next.Follows t root i below st.environment.defaultPolicy) :
    (runNext t s st next statement).Follows t := by
  cases statement with
  | branch guard a b =>
    rw [Statement.occurrences] at hparts
    obtain ⟨hfront, hb⟩ := hparts.append
    obtain ⟨hguard, ha⟩ := hfront.append
    exact h.keep _ ⟨hguard, ha, hb, hnext⟩
  | write field update =>
    refine follows_proceed h fun _ env hok => ?_
    obtain ⟨value, route, -, -, rfl⟩ := Evaluation.of_write_ok hok
    exact hnext
  | setDefaultPolicy target =>
    refine h.keep _ ?_
    cases hlink : target.link with
    | none => exact hnext
    | some id =>
      have hsets : t.SetsDefault i id := hparts.refers List.mem_cons_self rfl hlink
      exact next.follows_some hnext ⟨i, .refl, hsets⟩
  | call target =>
    refine follows_enter h target (fun id callee hlink => ?_) hnext hnext
    exact ⟨i, below, rfl, h.policy_eq, hparts.refers List.mem_cons_self rfl hlink, hnext⟩
  | comment text => exact h.keep _ hnext
  | control kind => cases kind <;> exact h.keep _ hnext

theorem follows_judgeNext (h : st.FollowsFrom t root i below) {c : Condition}
    (hparts : t.Contains i c.occurrences) {next : OnVerdict}
    (hnext : next.Follows t root i below st.environment.defaultPolicy) :
    (judgeNext t s st next c).Follows t := by
  cases c with
  | literal b => exact h.keep _ hnext
  | test p => exact h.keep _ hnext
  | not c => exact h.keep _ ⟨hparts, hnext⟩
  | all cs => exact h.keep _ (follows_nextOperand true true hparts hnext)
  | any cs => exact h.keep _ (follows_nextOperand false false hparts hnext)
  | firstMatch targets =>
    cases targets with
    | nil => exact h.keep _ hnext
    | cons r rs =>
      have hrest : t.Contains i (Condition.firstMatch rs).occurrences :=
        hparts.mono (List.subset_cons_self _ _)
      exact follows_ask h hparts (by simp) ⟨hrest, hnext⟩
  | allMatch targets =>
    cases targets with
    | nil => exact h.keep _ hnext
    | cons r rs =>
      have hrest : t.Contains i (Condition.allMatch rs).occurrences :=
        hparts.mono (List.subset_cons_self _ _)
      exact follows_ask h hparts (by simp) ⟨hrest, hnext⟩
  | callPolicy target => exact follows_ask h hparts (by simp) hnext
  | inCall => exact h.keep _ hnext

/-- Control is back in the policy that the stack below ends in. -/
theorem Running.FollowsFrom.pop (h : st.FollowsFrom t root i below) {j : PolicyId}
    {front : List PolicyId} {caller : String} (hbelow : below = front ++ [j])
    (hname : t.nameOf j = caller) {control : Control} {env : Environment}
    (notices : List Notice)
    (hcontrol : control.Follows t root j front env.defaultPolicy) :
    Running.Follows t { st.pop caller with control, environment := env, notices } := by
  refine ⟨root, j, front, ?_, hname, h.last_eq, h.falls, hcontrol⟩
  simp only [Running.pop, h.callStack_eq, List.dropLast_concat, hbelow]

theorem follows_takeFlow (h : st.FollowsFrom t root i below) (flow : Flow) {next : OnFlow}
    (hnext : next.Follows t root i below st.environment.defaultPolicy) :
    (takeFlow t s d st flow next).Follows t := by
  cases next with
  | rest ss next =>
    refine h.keep _ ?_
    split
    · exact hnext
    · exact hnext.2
  | called caller next =>
    obtain ⟨j, front, hbelow, hname, -, hnext⟩ := hnext
    exact h.pop hbelow hname _ hnext
  | asked caller callee action policy next =>
    obtain ⟨j, front, hbelow, hname, -, hnext⟩ := hnext
    exact h.pop hbelow hname _ hnext
  | topLevel =>
    obtain ⟨rfl, -, hdefault⟩ := hnext
    rcases t.ending_cases st.visited st.environment flow with
      ⟨action, hending⟩ | ⟨id, hid, ⟨_, hending⟩ | ⟨_, q, hg, hending⟩⟩
    all_goals rw [takeFlow, hending]
    · trivial
    · trivial
    · exact follows_topLevel hg List.getLast?_concat
        (isChain_concat h.falls h.last_eq (hdefault id hid)) _ _

/-- Every step follows the edges of the table. -/
theorem follows_step (h : st.Follows t) : (step t s d (.running st)).Follows t := by
  obtain ⟨root, i, below, h⟩ := h
  have hfollows := h.control
  rw [step]
  cases hcontrol : st.control with
  | runs ss next =>
    rw [hcontrol] at hfollows
    obtain ⟨hparts, hnext⟩ := hfollows
    cases ss with
    | nil => exact h.keep _ hnext
    | cons statement ss =>
      rw [Statement.occurrencesAll] at hparts
      exact follows_runNext h hparts.append.1 ⟨hparts.append.2, hnext⟩
  | judges c next =>
    rw [hcontrol] at hfollows
    exact follows_judgeNext h hfollows.1 hfollows.2
  | leaves flow next =>
    rw [hcontrol] at hfollows
    exact follows_takeFlow h flow hfollows
  | gives v next =>
    rw [hcontrol] at hfollows
    exact h.keep _ (follows_takeVerdict v hfollows)

/-- Every moment of every evaluation has followed the edges of the table. -/
theorem follows_after (policy : String) (route : Route) (n : Nat)
    (h : after t s d policy route n = .running st) : st.Follows t := by
  refine invariant_after (P := Running.Follows t)
    (fun id p hg => follows_topLevel hg rfl (.singleton id) _ _) ?_ n h
  intro st st' hst hstep
  have hfollows := follows_step (s := s) (d := d) hst
  rw [hstep] at hfollows
  exact hfollows

end

end Machine

end RoutePolicy
