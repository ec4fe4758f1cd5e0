import RoutePolicy.Proofs.Evaluation.Waiting

/-!
# Stack discipline and scoping

A list of statements leaves the stack of running policies as it finds it, however control leaves
the list.  A condition does so too, and it leaves the default action and the default policy alone
as well, whatever the policies do that it runs: a policy that is asked for its verdict puts them
back, also when it calls others that change them.

* `Machine.Framed` — while something waits, what the stack was then stays at its bottom;
  `Machine.Completes.stack_eq` is the end of that;
* `Machine.Owes` — while a condition is judged, the defaults from before are in force or saved;
  `Machine.Completes.defaults_eq` is the end of that;
* `Table.evaluate_scopes` — what follows for all moments, lists of statements and conditions of an
  evaluation.
-/

set_option autoImplicit false

namespace RoutePolicy

namespace Machine

variable {t : Table} {s : Settings} {d : Direction}

/-! ## The stack -/

/-- A moment of the wait for an outcome: what waits keeps waiting, and the policies that ran when
the wait began are the bottom of the stack. -/
structure Framed (t : Table) (base : Level) (stack visited : List PolicyId) (st : Running) :
    Prop where
  sound : Sound t st
  ahead : Over base st.level
  bottom : stack <+: st.callStack
  visited_eq : st.visited = visited

theorem Framed.step {base : Level} {stack visited : List PolicyId} {st st' : Running}
    (hlength : stack.length = base.waiting.callees + 1) (h : Framed t base stack visited st)
    (hopen : ¬st.control.Answers base.waiting)
    (hstep : step t s d (.running st) = .running st') : Framed t base stack visited st' := by
  obtain ⟨hahead, hvisited⟩ := (shift_step hstep).keeps h.ahead hopen
  have hmove : Move t s st (.running st') := hstep ▸ move_step st
  have hsound := h.sound.move hmove
  have hcallees : base.waiting.callees ≤ st'.callees :=
    Nat.le_trans hahead.callees_le (Nat.le_of_eq (Control.callees_waiting _))
  refine ⟨hsound, hahead, ?_, hvisited.trans h.visited_eq⟩
  cases hmove with
  | stays _ _ hstack => exact hstack ▸ h.bottom
  | enters _ id _ _ _ _ _ hstack => exact hstack ▸ h.bottom.trans (List.prefix_append _ _)
  | returns _ hstack =>
    have hdepth := hsound.depth
    have hcallees' := hsound.callees
    -- the policy that is left ran on top of those that the wait found on the stack
    refine List.prefix_of_prefix_length_le h.bottom ?_ (by omega)
    rw [hstack]
    exact List.dropLast_prefix _
  | falls _ id _ _ _ _ _ _ _ hfalls =>
    rw [hvisited] at hfalls
    simp at hfalls

theorem Sound.length_eq {st : Running} (h : Sound t st) :
    st.callStack.length = st.level.waiting.callees + 1 := by
  rw [← h.depth, ← h.callees, Running.level, Control.callees_waiting, Running.callees]

/-- When the outcome is there, the same policy runs under the same callers as when the wait began,
and no default policy took over. -/
theorem Completes.stack_eq {w : Waiting} {st st' : Running} (h : Completes t s d w st st')
    (hsound : Sound t st) (hwaiting : st.control.waiting = w) :
    st'.policy = st.policy ∧ st'.callStack = st.callStack ∧ st'.callDepth = st.callDepth ∧
      st'.visited = st.visited := by
  subst hwaiting
  have hframed : Framed t st.level st.callStack st.visited st' := by
    refine h.invariant (fun _ _ hopen hst hstep => hst.step hsound.length_eq hopen hstep) ?_
    exact ⟨hsound, .refl, List.prefix_refl _, rfl⟩
  have hlevel : st'.level = st.level := hframed.ahead.eq_of_waiting_eq h.answers.2
  have hlength : st.callStack.length = st'.callStack.length := by
    rw [hsound.length_eq, hframed.sound.length_eq, hlevel]
  have hdepth := hsound.depth
  have hdepth' := hframed.sound.depth
  exact ⟨congrArg Level.policy hlevel, (hframed.bottom.eq_of_length hlength).symm, by omega,
    hframed.visited_eq⟩

/-! ## The defaults -/

/-- A link of the chain in front of a condition, with the defaults in force: they are those from
before the condition was judged, or a policy that runs for its verdict will put such back. -/
inductive Owes (name : String) (base : OnVerdict) (before : Action × Option PolicyId) :
    Level → Action × Option PolicyId → Prop where
  | here : Owes name base before ⟨name, .verdict base⟩ before
  | plain {l l' : Level} {now : Action × Option PolicyId} (behind : PlainlyBehind l l')
      (h : Owes name base before l now) : Owes name base before l' now
  | asked {name' caller callee : String} {action : Action} {policy : Option PolicyId}
      {next : OnVerdict} {now : Action × Option PolicyId}
      (h : Owes name base before ⟨caller, .verdict next⟩ (action, policy)) :
      Owes name base before ⟨name', .flow (.asked caller callee action policy next)⟩ now

variable {name : String} {base : OnVerdict} {before now : Action × Option PolicyId}

theorem Owes.over {l : Level} (h : Owes name base before l now) :
    Over ⟨name, .verdict base⟩ l := by
  induction h with
  | here => exact .refl
  | plain hbehind _ ih => exact ih.tail hbehind.1
  | asked _ ih => exact ih.tail rfl

theorem Owes.over_plain {l l' : Level} (h : Owes name base before l now) (hplain : Plain l l') :
    Owes name base before l' now := by
  induction hplain with
  | refl => exact h
  | tail _ hbehind ih => exact ih.plain hbehind

/-- Statements that run while a condition is judged belong to a policy that is asked, so the
defaults in force do not matter. -/
theorem Owes.of_flow {policy : String} {next : OnFlow}
    (h : Owes name base before ⟨policy, .flow next⟩ now) (now' : Action × Option PolicyId) :
    Owes name base before ⟨policy, .flow next⟩ now' := by
  generalize hl : Level.mk policy (.flow next) = l at h
  induction h generalizing policy next with
  | here => cases hl
  | asked h =>
    cases hl
    exact .asked h
  | plain hbehind _ ih =>
    subst hl
    cases next with
    | topLevel => cases hbehind.1
    | rest ss next =>
      cases hbehind.1
      exact .plain ⟨rfl, rfl⟩ (ih rfl)
    | called caller next =>
      cases hbehind.1
      exact .plain ⟨rfl, rfl⟩ (ih rfl)
    | asked caller callee action policy next => cases hbehind.2

theorem Owes.of_plain {l l' : Level} (h : Owes name base before l' now)
    (hbehind : PlainlyBehind l l') (hne : l'.waiting ≠ .verdict base) :
    Owes name base before l now := by
  cases h with
  | here => exact absurd rfl hne
  | plain hbehind' h =>
    cases hbehind'.1.symm.trans hbehind.1
    exact h
  | asked h => cases hbehind.2

theorem Owes.of_asked {name' caller callee : String} {action : Action} {policy : Option PolicyId}
    {next : OnVerdict}
    (h : Owes name base before ⟨name', .flow (.asked caller callee action policy next)⟩ now) :
    Owes name base before ⟨caller, .verdict next⟩ (action, policy) := by
  cases h with
  | plain hbehind => cases hbehind.2
  | asked h => exact h

theorem Owes.eq_of_here {policy : String}
    (h : Owes name base before ⟨policy, .verdict base⟩ now) : now = before := by
  cases h with
  | here => rfl
  | plain hbehind h =>
    have hlt := Level.sizeOf_lt_of_next? hbehind.1
    exact absurd h.over.sizeOf_le (Nat.not_le_of_lt hlt)

/-- Every step before the verdict is there keeps what is owed. -/
theorem Owes.step {st st' : Running} (h : Owes name base before st.level st.environment.defaults)
    (hopen : ¬st.control.Answers (.verdict base))
    (hstep : step t s d (.running st) = .running st') :
    Owes name base before st'.level st'.environment.defaults := by
  cases shift_step hstep with
  | opens _ hplain hdefaults =>
    refine Owes.over_plain ?_ hplain
    unfold Running.level at h ⊢
    cases hwaiting : st.control.waiting with
    | flow next => exact (hwaiting ▸ h).of_flow _
    | verdict next =>
      rw [hdefaults next hwaiting]
      exact hwaiting ▸ h
  | asks _ caller callee next hplain hlevel =>
    rw [hlevel]
    exact .asked (h.over_plain hplain)
  | resumes houtcome l hbehind hplain hdefaults =>
    rw [hdefaults]
    exact (h.of_plain hbehind fun heq => hopen ⟨houtcome, heq⟩).over_plain hplain
  | restores _ _ caller callee action policy next hasked hlevel hdefaults =>
    rw [hlevel, hdefaults]
    rw [hasked] at h
    exact h.of_asked
  | restarts hanswers =>
    rw [Running.level, hanswers.2] at h
    cases h with
    | plain hbehind => cases hbehind.1

/-- When the verdict is there, the defaults are what they were before the condition was judged. -/
theorem Completes.defaults_eq {st st' : Running} (h : Completes t s d (.verdict base) st st')
    (hwaiting : st.control.waiting = .verdict base) :
    st'.environment.defaults = st.environment.defaults := by
  have howes :
      Owes st.policy base st.environment.defaults st'.level st'.environment.defaults := by
    refine h.invariant (fun _ _ hopen hst hstep => Owes.step hst hopen hstep) ?_
    rw [Running.level, hwaiting]
    exact .here
  rw [Running.level, h.answers.2] at howes
  exact howes.eq_of_here

/-- Of a condition that has been judged nothing is left but what was written and reported. -/
theorem Completes.exists_verdict {st st' : Running} (h : Completes t s d (.verdict base) st st')
    (hsound : Sound t st) (hwaiting : st.control.waiting = .verdict base) :
    ∃ verdict, st' = { st with
      control := .gives verdict base
      environment := { st.environment with
        route := st'.environment.route, overlay := st'.environment.overlay }
      notices := st'.notices } := by
  obtain ⟨hpolicy, hstack, hdepth, hvisited⟩ := h.stack_eq hsound hwaiting
  obtain ⟨haction, hdefault⟩ := Prod.mk.inj (h.defaults_eq hwaiting)
  obtain ⟨houtcome, hanswered⟩ := h.answers
  obtain ⟨verdict, hcontrol⟩ : ∃ verdict, st'.control = .gives verdict base := by
    cases hcontrol : st'.control with
    | gives verdict next =>
      rw [hcontrol] at hanswered
      cases hanswered
      exact ⟨verdict, rfl⟩
    | leaves flow next =>
      rw [hcontrol] at hanswered
      cases hanswered
    | _ =>
      rw [hcontrol] at houtcome
      cases houtcome
  refine ⟨verdict, ?_⟩
  simp only [← hpolicy, ← hstack, ← hdepth, ← hvisited, ← hcontrol, ← haction, ← hdefault]

/-! ## Completion -/

section

variable {policy : String} {route : Route} {n : Nat} {st : Running}

variable (t s d) in
theorem callable (stack : List PolicyId) : Callable t s d stack :=
  fun _ callee _ _ _ next hst => leads_runPolicy _ callee hst next

theorem aligned_of_after (h : after t s d policy route n = .running st) :
    Aligned st.callStack st.policy st :=
  ⟨rfl, rfl, (sound_after policy route n h).depth⟩

theorem completes_or_fails {α : Type} {o : Outcome α} {next : α → Control} {w : Waiting}
    (hafter : after t s d policy route n = .running st)
    (hleads : Leads t s d (.running st) (st.proceed o next)) (hnext : ∀ a, (next a).Answers w) :
    (∃ st', Completes t s d w st st') ∨ ∃ e, (t.evaluate s policy route d).2 = .error e := by
  unfold Running.proceed at hleads
  split at hleads
  · rename_i a env _
    exact .inl (hleads.exists_completes rfl rfl (hnext a))
  · rename_i e _
    obtain ⟨m, hm⟩ := hleads.exists_after hafter
    exact .inr ⟨e, by rw [evaluate_of_halted hm]; rfl⟩

/-- Control leaves every list of statements at last, unless the evaluation fails. -/
theorem runs_completes_or_fails (h : after t s d policy route n = .running st)
    {ss : List Statement} {next : OnFlow} (hcontrol : st.control = .runs ss next) :
    (∃ st', Completes t s d (.flow next) st st') ∨
      ∃ e, (t.evaluate s policy route d).2 = .error e := by
  have hleads := leads_runAll (callable t s d st.callStack) ss (aligned_of_after h) next
  have hgoto : st.goto (.runs ss next) = st := by rw [Running.goto, ← hcontrol]
  rw [hgoto] at hleads
  exact completes_or_fails h hleads fun _ => ⟨rfl, rfl⟩

/-- Every condition has a verdict at last, unless the evaluation fails. -/
theorem judges_completes_or_fails (h : after t s d policy route n = .running st)
    {c : Condition} {next : OnVerdict} (hcontrol : st.control = .judges c next) :
    (∃ st', Completes t s d (.verdict next) st st') ∨
      ∃ e, (t.evaluate s policy route d).2 = .error e := by
  have hleads := leads_judge (callable t s d st.callStack) c (aligned_of_after h) next
  have hstep : step t s d (.running st) = .running (judgeNext t s st next c) := by
    rw [step, hcontrol]
  rw [← hstep] at hleads
  exact completes_or_fails h (.next hleads) fun _ => ⟨rfl, rfl⟩

end

end Machine

/-- **Evaluations keep to their stack, and conditions to their scope.**  At every moment the stack
starts with the policy of the current top-level run, holds policies of the table and none of them
twice, and the depth is one less than its length and within the bound.  Every list of statements
leaves stack and depth as they were, whatever flow it ends with.  Every condition does so too, and
after it the default action and the default policy are what they were before; the route with the
overlay and the notices are all that it may have changed.  Lists and conditions come to their end
unless the evaluation fails. -/
theorem Table.evaluate_scopes (t : Table) (s : Settings) (policy : String) (route : Route)
    (d : Direction) :
    (∀ n st, Machine.after t s d policy route n = .running st →
      st.callStack.head? = st.visited.getLast? ∧ st.callStack.Nodup ∧
      (∀ id ∈ st.callStack, ∃ p, t.get? id = some p) ∧
      st.callDepth + 1 = st.callStack.length ∧ st.callDepth ≤ s.maxCallDepth) ∧
    (∀ n st ss next, Machine.after t s d policy route n = .running st →
      st.control = .runs ss next →
      ((∃ st', Machine.Completes t s d (.flow next) st st') ∨
        ∃ e, (t.evaluate s policy route d).2 = .error e) ∧
      ∀ st', Machine.Completes t s d (.flow next) st st' →
        st'.callStack = st.callStack ∧ st'.callDepth = st.callDepth) ∧
    (∀ n st c next, Machine.after t s d policy route n = .running st →
      st.control = .judges c next →
      ((∃ st', Machine.Completes t s d (.verdict next) st st') ∨
        ∃ e, (t.evaluate s policy route d).2 = .error e) ∧
      ∀ st', Machine.Completes t s d (.verdict next) st st' →
        st'.callStack = st.callStack ∧ st'.callDepth = st.callDepth ∧
        st'.environment.defaultAction = st.environment.defaultAction ∧
        st'.environment.defaultPolicy = st.environment.defaultPolicy ∧
        ∃ verdict, st' = { st with
          control := .gives verdict next
          environment := { st.environment with
            route := st'.environment.route, overlay := st'.environment.overlay }
          notices := st'.notices }) := by
  refine ⟨fun n st hst => ?_, fun n st ss next hst hcontrol => ?_,
    fun n st c next hst hcontrol => ?_⟩
  · have hsound := Machine.sound_after policy route n hst
    refine ⟨hsound.top, hsound.stack.nodup, fun id hid => ?_, hsound.depth,
      Machine.callDepth_le_after policy route n hst⟩
    exact ⟨_, List.getElem?_eq_getElem (hsound.stack.within id hid)⟩
  · refine ⟨Machine.runs_completes_or_fails hst hcontrol, fun st' hcompletes => ?_⟩
    obtain ⟨-, hstack, hdepth, -⟩ :=
      hcompletes.stack_eq (Machine.sound_after policy route n hst) (by rw [hcontrol]; rfl)
    exact ⟨hstack, hdepth⟩
  · have hwaiting : st.control.waiting = .verdict next := by rw [hcontrol]; rfl
    have hsound := Machine.sound_after policy route n hst
    refine ⟨Machine.judges_completes_or_fails hst hcontrol, fun st' hcompletes => ?_⟩
    obtain ⟨-, hstack, hdepth, -⟩ := hcompletes.stack_eq hsound hwaiting
    obtain ⟨haction, hpolicy⟩ := Prod.mk.inj (hcompletes.defaults_eq hwaiting)
    exact ⟨hstack, hdepth, haction, hpolicy, hcompletes.exists_verdict hsound hwaiting⟩

end RoutePolicy
