import RoutePolicy.Proofs.Evaluation.Termination
import Mathlib.Logic.Relation

/-!
# What waits, and for what

All that waits at a moment is a chain: something waits for control to leave a list of statements
or for a verdict, behind it waits something else, and so on to the top level.  A step either makes
more wait, or hands an outcome to what waits first and goes on with what is behind it.

* `Machine.Level`, `Machine.Level.next?` — a link of the chain, and the one behind it;
* `Machine.Over`, `Machine.Plain` — what is further in the chain, with and without policies
  that run for their verdict in between;
* `Machine.Shift`, `Machine.shift_step` — all that a step can do to the chain, and to the default
  action and the default policy on that occasion;
* `Machine.Completes` — the run from a moment to the first one that answers what waits.
-/

set_option autoImplicit false

namespace RoutePolicy

/-- The default action and the default policy. -/
def Environment.defaults (env : Environment) : Action × Option PolicyId :=
  (env.defaultAction, env.defaultPolicy)

namespace Machine

/-- What waits at a moment: for control to leave a list of statements, or for a verdict. -/
inductive Waiting where
  | flow (next : OnFlow)
  | verdict (next : OnVerdict)

/-- The number of policies that run on behalf of another one. -/
def Waiting.callees : Waiting → Nat
  | .flow next => next.callees
  | .verdict next => next.callees

namespace Control

/-- What waits for the outcome. -/
def waiting : Control → Waiting
  | .runs _ next => .flow next
  | .judges _ next => .verdict next
  | .leaves _ next => .flow next
  | .gives _ next => .verdict next

/-- Whether there is an outcome to hand over. -/
def hasOutcome : Control → Bool
  | .runs _ _ | .judges _ _ => false
  | .leaves _ _ | .gives _ _ => true

/-- The outcome that something waits for is there. -/
def Answers (control : Control) (w : Waiting) : Prop :=
  control.hasOutcome = true ∧ control.waiting = w

theorem callees_waiting (control : Control) : control.waiting.callees = control.callees := by
  cases control <;> rfl

end Control

/-- A link of the chain: what waits, and the policy that runs there. -/
structure Level where
  policy : String
  waiting : Waiting

/-- The foremost link of the chain. -/
def Running.level (st : Running) : Level := ⟨st.policy, st.control.waiting⟩

namespace Level

/-- What waits behind, where the caller runs when a policy is left. -/
def next? : Level → Option Level
  | ⟨_, .flow .topLevel⟩ => none
  | ⟨policy, .flow (.rest _ next)⟩ => some ⟨policy, .flow next⟩
  | ⟨_, .flow (.called caller next)⟩ => some ⟨caller, .flow next⟩
  | ⟨_, .flow (.asked caller _ _ _ next)⟩ => some ⟨caller, .verdict next⟩
  | ⟨policy, .verdict (.branch _ _ next)⟩ => some ⟨policy, .flow next⟩
  | ⟨policy, .verdict (.negate next)⟩ => some ⟨policy, .verdict next⟩
  | ⟨policy, .verdict (.operands _ _ _ next)⟩ => some ⟨policy, .verdict next⟩
  | ⟨policy, .verdict (.firstOf _ next)⟩ => some ⟨policy, .verdict next⟩
  | ⟨policy, .verdict (.allOf _ next)⟩ => some ⟨policy, .verdict next⟩

/-- The default action and the default policy that come back into force with the outcome. -/
def saved? : Level → Option (Action × Option PolicyId)
  | ⟨_, .flow (.asked _ _ action policy _)⟩ => some (action, policy)
  | _ => none

theorem callees_le_of_next? {l l' : Level} (h : l'.next? = some l) :
    l.waiting.callees ≤ l'.waiting.callees := by
  unfold next? at h
  split at h <;> cases h <;> simp [Waiting.callees, OnFlow.callees, OnVerdict.callees]

theorem sizeOf_lt_of_next? {l l' : Level} (h : l'.next? = some l) :
    sizeOf l.waiting < sizeOf l'.waiting := by
  unfold next? at h
  split at h <;> cases h <;> simp only [Waiting.flow.sizeOf_spec, Waiting.verdict.sizeOf_spec,
    OnFlow.rest.sizeOf_spec, OnFlow.called.sizeOf_spec, OnFlow.asked.sizeOf_spec,
    OnVerdict.branch.sizeOf_spec, OnVerdict.negate.sizeOf_spec, OnVerdict.operands.sizeOf_spec,
    OnVerdict.firstOf.sizeOf_spec, OnVerdict.allOf.sizeOf_spec] <;> omega

end Level

/-- The first link is right behind the second one. -/
def Behind (l l' : Level) : Prop := l'.next? = some l

/-- The first link is right behind the second one, which is not a policy that runs for its
verdict. -/
def PlainlyBehind (l l' : Level) : Prop := l'.next? = some l ∧ l'.saved? = none

/-- The second link is somewhere in front of the first one, or the same. -/
abbrev Over : Level → Level → Prop := Relation.ReflTransGen Behind

/-- The second link is somewhere in front of the first one, with no policy that runs for its verdict
on the way there, or the same. -/
abbrev Plain : Level → Level → Prop := Relation.ReflTransGen PlainlyBehind

variable {base l l' : Level}

theorem Plain.over (h : Plain l l') : Over l l' := by
  induction h with
  | refl => exact .refl
  | tail _ hbehind ih => exact ih.tail hbehind.1

theorem Over.callees_le (h : Over l l') : l.waiting.callees ≤ l'.waiting.callees := by
  induction h with
  | refl => exact Nat.le_refl _
  | tail _ hbehind ih => exact Nat.le_trans ih (Level.callees_le_of_next? hbehind)

theorem Over.sizeOf_le (h : Over l l') : sizeOf l.waiting ≤ sizeOf l'.waiting := by
  induction h with
  | refl => exact Nat.le_refl _
  | tail _ hbehind ih => exact Nat.le_trans ih (Nat.le_of_lt (Level.sizeOf_lt_of_next? hbehind))

/-- The same does not wait in two places of a chain. -/
theorem Over.eq_of_waiting_eq (h : Over base l) (hwaiting : l.waiting = base.waiting) :
    l = base := by
  rcases Relation.ReflTransGen.cases_tail h with heq | ⟨l', hover, hbehind⟩
  · exact heq
  · have hlt := Level.sizeOf_lt_of_next? hbehind
    have hle := Over.sizeOf_le hover
    rw [hwaiting] at hlt
    exact absurd hle (Nat.not_le_of_lt hlt)

/-- Behind a link in front of another one is that one, or a link in front of it. -/
theorem Over.of_next? (h : Over base l') (hne : l' ≠ base) (hnext : l'.next? = some l) :
    Over base l := by
  rcases Relation.ReflTransGen.cases_tail h with rfl | ⟨l'', hover, hbehind⟩
  · exact absurd rfl hne
  · cases hbehind.symm.trans hnext
    exact hover

/-! ## Shifts -/

/-- All that a step can do to what waits: more waits than before, a policy runs for its verdict, an
outcome is handed over, a policy that ran for its verdict gives it, or a top-level run is over.
The defaults can change while statements run, and they change back with a verdict. -/
inductive Shift (st st' : Running) : Prop where
  | opens (outcome_eq : st.control.hasOutcome = false) (plain : Plain st.level st'.level)
      (defaults_eq : ∀ next, st.control.waiting = .verdict next →
        st'.environment.defaults = st.environment.defaults)
      (visited_eq : st'.visited = st.visited)
  | asks (outcome_eq : st.control.hasOutcome = false) (caller callee : String) (next : OnVerdict)
      (plain : Plain st.level ⟨caller, .verdict next⟩)
      (level_eq : st'.level = ⟨callee, .flow (.asked caller callee
        st.environment.defaultAction st.environment.defaultPolicy next)⟩)
      (visited_eq : st'.visited = st.visited)
  | resumes (outcome_eq : st.control.hasOutcome = true) (l : Level)
      (behind : PlainlyBehind l st.level) (plain : Plain l st'.level)
      (defaults_eq : st'.environment.defaults = st.environment.defaults)
      (visited_eq : st'.visited = st.visited)
  | restores (outcome_eq : st.control.hasOutcome = true) (name caller callee : String)
      (action : Action) (policy : Option PolicyId) (next : OnVerdict)
      (asked_eq : st.level = ⟨name, .flow (.asked caller callee action policy next)⟩)
      (level_eq : st'.level = ⟨caller, .verdict next⟩)
      (defaults_eq : st'.environment.defaults = (action, policy))
      (visited_eq : st'.visited = st.visited)
  | restarts (answers : st.control.Answers (.flow .topLevel))

variable {t : Table} {s : Settings} {d : Direction}

theorem plain_nextOperand (policy : String) (neutral value : Bool) (next : OnVerdict)
    (cs : List Condition) :
    Plain ⟨policy, .verdict next⟩ ⟨policy, (nextOperand neutral value next cs).waiting⟩ := by
  cases cs with
  | nil => exact .refl
  | cons c cs => exact .single ⟨rfl, rfl⟩

/-- An attempt to enter a policy leaves the environment and the top-level runs alone, and has one of
three outcomes. -/
theorem enter_cases (st : Running) (r : Reference) (waits : Policy → OnFlow)
    (absent refused : Control) :
    (enter t s st r waits absent refused).environment = st.environment ∧
      (enter t s st r waits absent refused).visited = st.visited ∧
      ((enter t s st r waits absent refused).level = ⟨st.policy, absent.waiting⟩ ∨
        (enter t s st r waits absent refused).level = ⟨st.policy, refused.waiting⟩ ∨
        ∃ callee : Policy, (enter t s st r waits absent refused).level =
          ⟨callee.name, .flow (waits callee)⟩) := by
  have hentered := entered_enter t s st r waits absent refused
  generalize enter t s st r waits absent refused = st' at hentered ⊢
  cases hentered with
  | absent => exact ⟨rfl, rfl, .inl rfl⟩
  | cycle => exact ⟨rfl, rfl, .inr (.inl rfl)⟩
  | depth => exact ⟨rfl, rfl, .inr (.inl rfl)⟩
  | runs id callee => exact ⟨rfl, rfl, .inr (.inr ⟨callee, rfl⟩)⟩

theorem shift_call {st : Running} {r : Reference} {ss : List Statement} {next : OnFlow}
    (hcontrol : st.control = .runs (.call r :: ss) next) :
    Shift st (call t s st r (.rest ss next)) := by
  obtain ⟨henv, hvisited, hresult⟩ := enter_cases (t := t) (s := s) st r
    (fun _ => .called st.policy (.rest ss next)) (.leaves .fallsThrough (.rest ss next))
    (.leaves (.exits .reject) (.rest ss next))
  have hrest : Plain st.level ⟨st.policy, .flow (.rest ss next)⟩ := by
    rw [Running.level, hcontrol]
    exact .single ⟨rfl, rfl⟩
  refine .opens (by rw [hcontrol]; rfl) ?_ (fun _ _ => by rw [call, henv]) hvisited
  rcases hresult with h | h | ⟨callee, h⟩
  · rw [call, h]
    exact hrest
  · rw [call, h]
    exact hrest
  · rw [call, h]
    exact hrest.tail ⟨rfl, rfl⟩

theorem shift_ask {st : Running} {c : Condition} {next : OnVerdict}
    (hcontrol : st.control = .judges c next) (r : Reference) {next' : OnVerdict}
    (hplain : Plain ⟨st.policy, .verdict next⟩ ⟨st.policy, .verdict next'⟩) :
    Shift st (ask t s st r next') := by
  obtain ⟨henv, hvisited, hresult⟩ := enter_cases (t := t) (s := s) st r
    (fun callee => .asked st.policy callee.name st.environment.defaultAction
      st.environment.defaultPolicy next')
    (.gives .unmatched next') (.gives .unmatched next')
  have houtcome : st.control.hasOutcome = false := by rw [hcontrol]; rfl
  have hlevel : Plain st.level ⟨st.policy, .verdict next'⟩ := by
    rw [Running.level, hcontrol]
    exact hplain
  rcases hresult with h | h | ⟨callee, h⟩
  · exact .opens houtcome (by rw [ask, h]; exact hlevel) (fun _ _ => by rw [ask, henv]) hvisited
  · exact .opens houtcome (by rw [ask, h]; exact hlevel) (fun _ _ => by rw [ask, henv]) hvisited
  · exact .asks houtcome _ _ next' hlevel h hvisited

theorem shift_proceed {α : Type} {st st' : Running} {o : Outcome α} {next : α → Control}
    (houtcome : st.control.hasOutcome = false) {w : OnFlow} (hw : st.control.waiting = .flow w)
    (hnext : ∀ a, Plain st.level ⟨st.policy, (next a).waiting⟩)
    (h : st.proceed o next = .running st') : Shift st st' := by
  rw [Running.proceed] at h
  split at h
  · rename_i a env _
    cases h
    refine .opens houtcome (hnext a) (fun v hv => ?_) rfl
    rw [hw] at hv
    cases hv
  · cases h

theorem shift_runNext {st st' : Running} {statement : Statement} {ss : List Statement}
    {next : OnFlow} (hcontrol : st.control = .runs (statement :: ss) next)
    (h : runNext t s st (.rest ss next) statement = .running st') : Shift st st' := by
  have houtcome : st.control.hasOutcome = false := by rw [hcontrol]; rfl
  have hwaiting : st.control.waiting = .flow next := by rw [hcontrol]; rfl
  have hrest : Plain st.level ⟨st.policy, .flow (.rest ss next)⟩ := by
    rw [Running.level, hwaiting]
    exact .single ⟨rfl, rfl⟩
  have hflow : ∀ v, st.control.waiting = .verdict v →
      st'.environment.defaults = st.environment.defaults := by
    intro v hv
    rw [hwaiting] at hv
    cases hv
  cases statement with
  | branch guard a b =>
    cases h
    exact .opens houtcome (hrest.tail ⟨rfl, rfl⟩) (fun _ _ => rfl) rfl
  | write field update =>
    have hproceed : st.proceed (Evaluation.write st.policy field update st.environment)
        (fun _ => .leaves .fallsThrough (.rest ss next)) = .running st' := h
    refine shift_proceed houtcome hwaiting (fun _ => ?_) hproceed
    exact hrest
  | setDefaultPolicy target =>
    cases h
    exact .opens houtcome hrest hflow rfl
  | call target =>
    cases h
    exact shift_call hcontrol
  | comment text =>
    cases h
    exact .opens houtcome hrest (fun _ _ => rfl) rfl
  | control kind =>
    have hproceed : st.proceed (kind.run st.environment) (.leaves · (.rest ss next)) =
        .running st' := h
    refine shift_proceed houtcome hwaiting (fun _ => ?_) hproceed
    exact hrest

theorem shift_judgeNext {st : Running} {c : Condition} {next : OnVerdict}
    (hcontrol : st.control = .judges c next) : Shift st (judgeNext t s st next c) := by
  have houtcome : st.control.hasOutcome = false := by rw [hcontrol]; rfl
  have hopens : ∀ control : Control,
      Plain ⟨st.policy, .verdict next⟩ ⟨st.policy, control.waiting⟩ →
      Shift st (st.goto control) := by
    intro control hplain
    exact .opens houtcome (by rw [Running.level, hcontrol]; exact hplain) (fun _ _ => rfl) rfl
  cases c with
  | literal b => exact hopens _ .refl
  | test p => exact hopens _ .refl
  | not c => exact hopens _ (.single ⟨rfl, rfl⟩)
  | all cs => exact hopens _ (plain_nextOperand ..)
  | any cs => exact hopens _ (plain_nextOperand ..)
  | firstMatch targets =>
    cases targets with
    | nil => exact hopens _ .refl
    | cons r rs => exact shift_ask hcontrol r (.single ⟨rfl, rfl⟩)
  | allMatch targets =>
    cases targets with
    | nil => exact hopens _ .refl
    | cons r rs => exact shift_ask hcontrol r (.single ⟨rfl, rfl⟩)
  | callPolicy target => exact shift_ask hcontrol target .refl
  | inCall => exact hopens _ .refl

theorem shift_takeFlow {st st' : Running} {flow : Flow} {next : OnFlow}
    (hcontrol : st.control = .leaves flow next) (h : takeFlow t s d st flow next = .running st') :
    Shift st st' := by
  have houtcome : st.control.hasOutcome = true := by rw [hcontrol]; rfl
  have hlevel : st.level = ⟨st.policy, .flow next⟩ := by rw [Running.level, hcontrol]; rfl
  cases next with
  | rest ss next =>
    cases h
    refine .resumes houtcome ⟨st.policy, .flow next⟩ (by rw [hlevel]; exact ⟨rfl, rfl⟩) ?_ rfl rfl
    show Plain _ ⟨_, Control.waiting (if flow = .fallsThrough then .runs ss next else _)⟩
    split <;> exact .refl
  | called caller next =>
    cases h
    exact .resumes houtcome ⟨caller, .flow next⟩ (by rw [hlevel]; exact ⟨rfl, rfl⟩) .refl rfl rfl
  | asked caller callee action policy next =>
    cases h
    exact .restores houtcome _ _ _ _ _ _ hlevel rfl rfl rfl
  | topLevel => exact .restarts ⟨houtcome, by rw [hcontrol]; rfl⟩

/-- What a verdict is handed to either goes on itself or leaves its place to what is behind. -/
theorem plain_takeVerdict (policy : String) (v : Verdict) (next : OnVerdict) :
    ∃ l, PlainlyBehind l ⟨policy, .verdict next⟩ ∧
      Plain l ⟨policy, (takeVerdict v next).waiting⟩ := by
  cases next with
  | branch a b next => exact ⟨⟨policy, .flow next⟩, ⟨rfl, rfl⟩, .refl⟩
  | negate next => exact ⟨⟨policy, .verdict next⟩, ⟨rfl, rfl⟩, .refl⟩
  | operands neutral value cs next =>
    exact ⟨⟨policy, .verdict next⟩, ⟨rfl, rfl⟩, plain_nextOperand ..⟩
  | firstOf rs next =>
    refine ⟨⟨policy, .verdict next⟩, ⟨rfl, rfl⟩, ?_⟩
    rw [takeVerdict]
    split <;> exact .refl
  | allOf rs next =>
    refine ⟨⟨policy, .verdict next⟩, ⟨rfl, rfl⟩, ?_⟩
    cases rs with
    | nil => exact .refl
    | cons r rs =>
      rw [takeVerdict]
      split <;> exact .refl

/-- Every step is one of the shifts. -/
theorem shift_step {st st' : Running} (h : step t s d (.running st) = .running st') :
    Shift st st' := by
  rw [step] at h
  cases hcontrol : st.control with
  | runs ss next =>
    rw [hcontrol] at h
    cases ss with
    | nil =>
      cases h
      refine .opens (by rw [hcontrol]; rfl) ?_ (fun _ _ => rfl) rfl
      rw [Running.level, hcontrol]
      exact .refl
    | cons statement ss => exact shift_runNext hcontrol h
  | judges c next =>
    rw [hcontrol] at h
    cases h
    exact shift_judgeNext hcontrol
  | leaves flow next =>
    rw [hcontrol] at h
    exact shift_takeFlow hcontrol h
  | gives v next =>
    rw [hcontrol] at h
    cases h
    obtain ⟨l, hbehind, hplain⟩ := plain_takeVerdict st.policy v next
    have hlevel : st.level = ⟨st.policy, .verdict next⟩ := by rw [Running.level, hcontrol]; rfl
    exact .resumes (by rw [hcontrol]; rfl) l (hlevel ▸ hbehind) hplain rfl rfl

/-- Until the outcome that something waits for is there, it keeps waiting, and no default policy
takes over. -/
theorem Shift.keeps {st st' : Running} (h : Shift st st') (hover : Over base st.level)
    (hopen : ¬st.control.Answers base.waiting) :
    Over base st'.level ∧ st'.visited = st.visited := by
  have hne : st.control.hasOutcome = true → st.level ≠ base := by
    rintro houtcome rfl
    exact hopen ⟨houtcome, rfl⟩
  cases h with
  | opens _ hplain _ hvisited => exact ⟨hover.trans hplain.over, hvisited⟩
  | asks _ caller callee next hplain hlevel hvisited =>
    rw [hlevel]
    exact ⟨(hover.trans hplain.over).tail rfl, hvisited⟩
  | resumes houtcome l hbehind hplain _ hvisited =>
    exact ⟨(hover.of_next? (hne houtcome) hbehind.1).trans hplain.over, hvisited⟩
  | restores houtcome name caller callee action policy next hasked hlevel _ hvisited =>
    rw [hlevel]
    exact ⟨hover.of_next? (hne houtcome) (by rw [hasked]; rfl), hvisited⟩
  | restarts hanswers =>
    -- behind the top level waits nothing else
    refine absurd ?_ (hne hanswers.1)
    rcases Relation.ReflTransGen.cases_tail hover with heq | ⟨l, -, hbehind⟩
    · exact heq
    · rw [Behind, Running.level, hanswers.2] at hbehind
      cases hbehind

/-! ## Completion -/

section

variable (t s d)

/-- The machine comes from a moment to the first one at which the outcome that something waits for
is there. -/
inductive Completes (w : Waiting) : Running → Running → Prop where
  | now {st : Running} (h : st.control.Answers w) : Completes w st st
  | later {st st' st'' : Running} (hopen : ¬st.control.Answers w)
      (hstep : step t s d (.running st) = .running st') (hrest : Completes w st' st'') :
      Completes w st st''

end

theorem Completes.answers {w : Waiting} {st st' : Running} (h : Completes t s d w st st') :
    st'.control.Answers w := by
  induction h with
  | now h => exact h
  | later _ _ _ ih => exact ih

/-- What every step before the completion keeps is there at the completion. -/
theorem Completes.invariant {w : Waiting} {P : Running → Prop}
    (hkeep : ∀ st st', ¬st.control.Answers w → P st →
      step t s d (.running st) = .running st' → P st')
    {st st' : Running} (h : Completes t s d w st st') (hst : P st) : P st' := by
  induction h with
  | now => exact hst
  | later hopen hstep _ ih => exact ih (hkeep _ _ hopen hst hstep)

theorem Leads.eq_of_halted {notices : List Notice}
    {result : Except MalformedPolicy Table.Completion} {b : State}
    (h : Leads t s d (.halted notices result) b) : b = .halted notices result := by
  generalize ha : State.halted notices result = a at h
  induction h with
  | refl a => rfl
  | next _ ih =>
    subst ha
    exact ih rfl

/-- A run to an outcome passes the first one. -/
theorem Leads.exists_completes {w : Waiting} {a b : State} (h : Leads t s d a b)
    {st st' : Running} (ha : a = .running st) (hb : b = .running st')
    (hanswers : st'.control.Answers w) : ∃ st'', Completes t s d w st st'' := by
  induction h generalizing st with
  | refl a =>
    cases ha.symm.trans hb
    exact ⟨st', .now hanswers⟩
  | next hrest ih =>
    subst ha
    by_cases hopen : st.control.Answers w
    · exact ⟨st, .now hopen⟩
    cases hstep : step t s d (.running st) with
    | running st₁ =>
      obtain ⟨st'', hcompletes⟩ := ih hstep hb
      exact ⟨st'', .later hopen hstep hcompletes⟩
    | halted notices result =>
      rw [hstep] at hrest
      cases hrest.eq_of_halted.symm.trans hb

end Machine

end RoutePolicy
