import RoutePolicy.Proofs.Policy.Writes
import RoutePolicy.Proofs.Table.Places

/-!
# An evaluation stays inside its table

When all references of a table are linked to places of the table, or not at all, an evaluation
never looks up any other place.  Everything that it runs or judges at any moment is a part of the
program of the policy that it runs just then; so a write that fails is a write of that policy.

* `Table.Closed` — the condition on the references of a table;
* `Machine.Running.target?` — the place that the next step looks up, and
  `Machine.step_congr`, that it looks up no other;
* `Machine.Running.Confined` — all that is going on is a part of some policy of the table, kept by
  every step (`Machine.confined_step`) and so true at every moment (`Machine.confined_after`);
* `Table.Closed.get?_target`, `Table.Closed.of_evaluate_error` — what follows for the places that
  are looked up, and for failures.
-/

set_option autoImplicit false

namespace RoutePolicy

/-- All references of a table are linked to places of the table, as far as they are linked. -/
def Table.Closed (t : Table) : Prop :=
  ∀ p ∈ t.policies, ∀ r ∈ Statement.referencesAll p.statements, t.Within r.link.toList

namespace Statement

/-- The writes and the references of statements are among those of a program. -/
structure PartOf (program ss : List Statement) : Prop where
  writes : writesAll ss ⊆ writesAll program
  references : referencesAll ss ⊆ referencesAll program

theorem PartOf.refl (program : List Statement) : PartOf program program where
  writes := List.Subset.refl _
  references := List.Subset.refl _

theorem PartOf.head {program ss : List Statement} {s : Statement} (h : PartOf program (s :: ss)) :
    s.writes ⊆ writesAll program ∧ s.references ⊆ referencesAll program := by
  have hwrites := h.writes
  have hreferences := h.references
  rw [writesAll] at hwrites
  rw [referencesAll] at hreferences
  exact ⟨(List.append_subset.mp hwrites).1, (List.append_subset.mp hreferences).1⟩

theorem PartOf.tail {program ss : List Statement} {s : Statement} (h : PartOf program (s :: ss)) :
    PartOf program ss := by
  have hwrites := h.writes
  have hreferences := h.references
  rw [writesAll] at hwrites
  rw [referencesAll] at hreferences
  exact ⟨(List.append_subset.mp hwrites).2, (List.append_subset.mp hreferences).2⟩

/-- The parts of a branch that is a part of a program. -/
theorem PartOf.branch {program a b : List Statement} {guard : Condition}
    (hwrites : (branch guard a b).writes ⊆ writesAll program)
    (hreferences : (branch guard a b).references ⊆ referencesAll program) :
    guard.references ⊆ referencesAll program ∧ PartOf program a ∧ PartOf program b := by
  rw [Statement.writes] at hwrites
  rw [Statement.references] at hreferences
  obtain ⟨hwa, hwb⟩ := List.append_subset.mp hwrites
  obtain ⟨hga, hrb⟩ := List.append_subset.mp hreferences
  obtain ⟨hguard, hra⟩ := List.append_subset.mp hga
  exact ⟨hguard, ⟨hwa, hra⟩, ⟨hwb, hrb⟩⟩

end Statement

/-! ## What waits -/

section

variable (t : Table)

mutual

/-- What waits is made of parts of a policy, as far as the policy that runs now is concerned, and
of parts of its callers in the table. -/
def OnFlow.Confined (p : Policy) : OnFlow → Prop
  | .topLevel => True
  | .rest ss next => Statement.PartOf p.statements ss ∧ next.Confined p
  | .called caller next => ∃ q ∈ t.policies, q.name = caller ∧ next.Confined q
  | .asked caller _ _ policy next =>
    t.Within policy.toList ∧ ∃ q ∈ t.policies, q.name = caller ∧ next.Confined q

/-- What waits is made of parts of a policy and of its callers. -/
def OnVerdict.Confined (p : Policy) : OnVerdict → Prop
  | .branch a b next =>
    Statement.PartOf p.statements a ∧ Statement.PartOf p.statements b ∧ next.Confined p
  | .negate next => next.Confined p
  | .operands _ _ cs next =>
    Condition.referencesAll cs ⊆ Statement.referencesAll p.statements ∧ next.Confined p
  | .firstOf rs next => rs ⊆ Statement.referencesAll p.statements ∧ next.Confined p
  | .allOf rs next => rs ⊆ Statement.referencesAll p.statements ∧ next.Confined p

end

end

namespace Machine

/-- What happens next is a part of a policy, and so is all that waits. -/
def Control.Confined (t : Table) (p : Policy) : Control → Prop
  | .runs ss next => Statement.PartOf p.statements ss ∧ next.Confined t p
  | .judges c next => c.references ⊆ Statement.referencesAll p.statements ∧ next.Confined t p
  | .leaves _ next => next.Confined t p
  | .gives _ next => next.Confined t p

/-- The running policy is a policy of the table, all that is going on is a part of it or of its
callers, and the default policy is a place of the table. -/
structure Running.Confined (t : Table) (st : Running) : Prop where
  running : ∃ p ∈ t.policies, p.name = st.policy ∧ st.control.Confined t p
  default : t.Within st.environment.defaultPolicy.toList

/-- The moment after a step, if there is one, is confined. -/
def State.Confined (t : Table) : State → Prop
  | .running st => st.Confined t
  | .halted _ _ => True

/-- The place that the next step looks up. -/
def Running.target? (st : Running) : Option PolicyId :=
  match st.control with
  | .runs (.call r :: _) _ => r.link
  | .judges (.callPolicy r) _ => r.link
  | .judges (.firstMatch (r :: _)) _ => r.link
  | .judges (.allMatch (r :: _)) _ => r.link
  | .leaves (.exits _) .topLevel => none
  | .leaves _ .topLevel => st.environment.defaultPolicy
  | _ => none

/-! ## What a step looks up -/

section

variable {t u : Table} {s : Settings} {d : Direction} {st : Running}

theorem enter_congr (hnames : t.nameOf = u.nameOf) {r : Reference}
    (hget : ∀ id, r.link = some id → t.get? id = u.get? id) (waits : Policy → OnFlow)
    (absent refused : Control) :
    enter t s st r waits absent refused = enter u s st r waits absent refused := by
  have hfound : (r.link.bind fun id => (t.get? id).map (id, ·)) =
      r.link.bind fun id => (u.get? id).map (id, ·) := by
    cases hlink : r.link with
    | none => rfl
    | some id => rw [Option.bind_some, Option.bind_some, hget id hlink]
  unfold enter Table.cycleNotices
  rw [hfound, hnames]

theorem ending_congr_of_get? (visited : List PolicyId) (env : Environment) {flow : Flow}
    (hget : (∀ action, flow ≠ .exits action) →
      ∀ id, env.defaultPolicy = some id → t.get? id = u.get? id) :
    t.ending visited env flow = u.ending visited env flow := by
  cases flow with
  | exits action => rfl
  | _ =>
    unfold Table.ending
    cases hdefault : env.defaultPolicy with
    | none => rfl
    | some id => simp only [hget (by simp) id hdefault]

/-- A step looks up its target and nothing else: the names apart, two tables that hold the same
policy there take the same step. -/
theorem step_congr (hnames : t.nameOf = u.nameOf)
    (hget : ∀ id, st.target? = some id → t.get? id = u.get? id) :
    step t s d (.running st) = step u s d (.running st) := by
  unfold Running.target? at hget
  rw [step, step]
  cases hcontrol : st.control with
  | runs ss next =>
    cases ss with
    | nil => rfl
    | cons statement ss =>
      cases statement with
      | call r =>
        rw [hcontrol] at hget
        exact congrArg State.running (enter_congr hnames hget _ _ _)
      | _ => rfl
  | judges c next =>
    rw [hcontrol] at hget
    refine congrArg State.running ?_
    cases c with
    | callPolicy r => exact enter_congr hnames hget _ _ _
    | firstMatch rs =>
      cases rs with
      | nil => rfl
      | cons r rs => exact enter_congr hnames hget _ _ _
    | allMatch rs =>
      cases rs with
      | nil => rfl
      | cons r rs => exact enter_congr hnames hget _ _ _
    | _ => rfl
  | leaves flow next =>
    rw [hcontrol] at hget
    cases next with
    | topLevel =>
      have hending : t.ending st.visited st.environment flow =
          u.ending st.visited st.environment flow := by
        refine ending_congr_of_get? _ _ fun hflow id hid => hget id ?_
        cases flow with
        | exits action => exact absurd rfl (hflow action)
        | fallsThrough => exact hid
        | returns v => exact hid
      simp only [takeFlow, hending, Table.cycleNotices, hnames]
    | _ => rfl
  | gives v next => rfl

end

/-! ## The step lemma -/

section

variable {t : Table} {s : Settings} {d : Direction} {st : Running} {p : Policy}

theorem confined_nextOperand (neutral value : Bool) {next : OnVerdict} {cs : List Condition}
    (hcs : Condition.referencesAll cs ⊆ Statement.referencesAll p.statements)
    (hnext : next.Confined t p) : (nextOperand neutral value next cs).Confined t p := by
  cases cs with
  | nil => exact hnext
  | cons c cs =>
    rw [Condition.referencesAll] at hcs
    obtain ⟨hc, hrest⟩ := List.append_subset.mp hcs
    exact ⟨hc, hrest, hnext⟩

theorem confined_takeVerdict (v : Verdict) {next : OnVerdict} (hnext : next.Confined t p) :
    (takeVerdict v next).Confined t p := by
  cases next with
  | branch a b next =>
    obtain ⟨ha, hb, hnext⟩ := hnext
    rw [takeVerdict]
    split
    · exact ⟨ha, hnext⟩
    · exact ⟨hb, hnext⟩
  | negate next => exact hnext
  | operands neutral value cs next => exact confined_nextOperand _ _ hnext.1 hnext.2
  | firstOf rs next =>
    rw [takeVerdict]
    split
    · exact hnext.2
    · exact hnext
  | allOf rs next =>
    cases rs with
    | nil => exact hnext.2
    | cons r rs =>
      rw [takeVerdict]
      split
      · exact hnext
      · exact hnext.2

theorem confined_topLevel (visited : List PolicyId) {id : PolicyId} (hg : t.get? id = some p)
    (env : Environment) (notices : List Notice) :
    (topLevel s d visited id p env notices).Confined t where
  running := ⟨p, List.mem_of_getElem? hg, rfl, .refl _, trivial⟩
  default := by simp [topLevel, Table.freshen, Table.Within]

section

variable (hp : p ∈ t.policies) (hname : p.name = st.policy)
  (hdefault : t.Within st.environment.defaultPolicy.toList)

include hp hname hdefault

theorem confined_enter (r : Reference) {waits : Policy → OnFlow} {absent refused : Control}
    (hwaits : ∀ q, (waits q).Confined t q) (habsent : absent.Confined t p)
    (hrefused : refused.Confined t p) :
    (enter t s st r waits absent refused).Confined t := by
  have hentered := entered_enter t s st r waits absent refused
  generalize enter t s st r waits absent refused = st' at hentered ⊢
  cases hentered with
  | absent => exact ⟨⟨p, hp, hname, habsent⟩, hdefault⟩
  | cycle => exact ⟨⟨p, hp, hname, hrefused⟩, hdefault⟩
  | depth => exact ⟨⟨p, hp, hname, hrefused⟩, hdefault⟩
  | runs id callee _ hg =>
    have hcallee : callee ∈ t.policies := List.mem_of_getElem? hg
    exact ⟨⟨callee, hcallee, rfl, .refl _, hwaits callee⟩, hdefault⟩

theorem confined_ask (r : Reference) {next : OnVerdict} (hnext : next.Confined t p) :
    (ask t s st r next).Confined t :=
  confined_enter hp hname hdefault r (fun _ => ⟨hdefault, p, hp, hname, hnext⟩) hnext hnext

theorem confined_write (field : RouteField) (update : Update) {next : OnFlow}
    (hnext : next.Confined t p) :
    (runNext t s st next (.write field update)).Confined t := by
  have hproceed : runNext t s st next (.write field update) =
      st.proceed (Evaluation.write st.policy field update st.environment) fun _ =>
        .leaves .fallsThrough next := rfl
  rw [hproceed]
  rcases hwrite : Evaluation.write st.policy field update st.environment with
    ⟨notices, e | ⟨u, env⟩⟩
  · exact trivial
  · have hok : (Evaluation.write st.policy field update st.environment).result =
        .ok ((), env) := by rw [hwrite]
    obtain ⟨value, route, -, -, rfl⟩ := Evaluation.of_write_ok hok
    exact ⟨⟨p, hp, hname, hnext⟩, hdefault⟩

theorem confined_control (kind : RoutePolicy.Control) {next : OnFlow}
    (hnext : next.Confined t p) :
    (st.proceed (kind.run st.environment) (.leaves · next)).Confined t := by
  cases kind <;> exact ⟨⟨p, hp, hname, hnext⟩, hdefault⟩

theorem confined_runNext (hclosed : t.Closed) {statement : Statement}
    (hwrites : statement.writes ⊆ Statement.writesAll p.statements)
    (hreferences : statement.references ⊆ Statement.referencesAll p.statements) {next : OnFlow}
    (hnext : next.Confined t p) : (runNext t s st next statement).Confined t := by
  cases statement with
  | branch guard a b =>
    obtain ⟨hguard, ha, hb⟩ := Statement.PartOf.branch hwrites hreferences
    exact ⟨⟨p, hp, hname, hguard, ha, hb, hnext⟩, hdefault⟩
  | write field update => exact confined_write hp hname hdefault field update hnext
  | setDefaultPolicy target =>
    refine ⟨⟨p, hp, hname, hnext⟩, ?_⟩
    have hmem : target ∈ Statement.referencesAll p.statements :=
      hreferences List.mem_cons_self
    have hwithin := hclosed p hp target hmem
    cases hlink : target.link with
    | none => exact hdefault
    | some id =>
      rw [hlink] at hwithin
      exact hwithin
  | call target =>
    exact confined_enter hp hname hdefault target (fun _ => ⟨p, hp, hname, hnext⟩) hnext hnext
  | comment text => exact ⟨⟨p, hp, hname, hnext⟩, hdefault⟩
  | control kind => exact confined_control hp hname hdefault kind hnext

theorem confined_judgeNext {c : Condition}
    (hc : c.references ⊆ Statement.referencesAll p.statements) {next : OnVerdict}
    (hnext : next.Confined t p) : (judgeNext t s st next c).Confined t := by
  cases c with
  | literal b => exact ⟨⟨p, hp, hname, hnext⟩, hdefault⟩
  | test predicate => exact ⟨⟨p, hp, hname, hnext⟩, hdefault⟩
  | not c => exact ⟨⟨p, hp, hname, hc, hnext⟩, hdefault⟩
  | all cs => exact ⟨⟨p, hp, hname, confined_nextOperand true true hc hnext⟩, hdefault⟩
  | any cs => exact ⟨⟨p, hp, hname, confined_nextOperand false false hc hnext⟩, hdefault⟩
  | firstMatch targets =>
    cases targets with
    | nil => exact ⟨⟨p, hp, hname, hnext⟩, hdefault⟩
    | cons r rs =>
      have hrest : rs ⊆ Statement.referencesAll p.statements :=
        List.Subset.trans (List.subset_cons_self r rs) hc
      exact confined_ask hp hname hdefault r ⟨hrest, hnext⟩
  | allMatch targets =>
    cases targets with
    | nil => exact ⟨⟨p, hp, hname, hnext⟩, hdefault⟩
    | cons r rs =>
      have hrest : rs ⊆ Statement.referencesAll p.statements :=
        List.Subset.trans (List.subset_cons_self r rs) hc
      exact confined_ask hp hname hdefault r ⟨hrest, hnext⟩
  | callPolicy target => exact confined_ask hp hname hdefault target hnext
  | inCall => exact ⟨⟨p, hp, hname, hnext⟩, hdefault⟩

theorem confined_takeFlow (flow : Flow) {next : OnFlow} (hnext : next.Confined t p) :
    (takeFlow t s d st flow next).Confined t := by
  cases next with
  | rest ss next =>
    refine ⟨⟨p, hp, hname, ?_⟩, hdefault⟩
    show Control.Confined t p (if flow = .fallsThrough then .runs ss next else .leaves flow next)
    split
    · exact hnext
    · exact hnext.2
  | called caller next => exact ⟨hnext, hdefault⟩
  | asked caller callee action policy next => exact ⟨hnext.2, hnext.1⟩
  | topLevel =>
    rw [takeFlow]
    cases hending : t.ending st.visited st.environment flow with
    | decides action => exact trivial
    | repeats id => exact trivial
    | fallsTo id q => exact confined_topLevel _ (t.of_ending_fallsTo hending).2 _ _

end

/-- Every step stays inside the table. -/
theorem confined_step (hclosed : t.Closed) (h : st.Confined t) :
    (step t s d (.running st)).Confined t := by
  obtain ⟨⟨p, hp, hname, hconfined⟩, hdefault⟩ := h
  rw [step]
  cases hcontrol : st.control with
  | runs ss next =>
    rw [hcontrol] at hconfined
    obtain ⟨hpart, hnext⟩ := hconfined
    cases ss with
    | nil => exact ⟨⟨p, hp, hname, hnext⟩, hdefault⟩
    | cons statement ss =>
      obtain ⟨hwrites, hreferences⟩ := hpart.head
      exact confined_runNext hp hname hdefault hclosed hwrites hreferences ⟨hpart.tail, hnext⟩
  | judges c next =>
    rw [hcontrol] at hconfined
    exact confined_judgeNext hp hname hdefault hconfined.1 hconfined.2
  | leaves flow next =>
    rw [hcontrol] at hconfined
    exact confined_takeFlow hp hname hdefault flow hconfined
  | gives v next =>
    rw [hcontrol] at hconfined
    exact ⟨⟨p, hp, hname, confined_takeVerdict v hconfined⟩, hdefault⟩

/-- Every moment of an evaluation stays inside the table. -/
theorem confined_after (hclosed : t.Closed) (policy : String) (route : Route) (n : Nat)
    (h : after t s d policy route n = .running st) : st.Confined t := by
  refine invariant_after (P := fun st => st.Confined t)
    (fun id p hg => confined_topLevel _ hg _ _) ?_ n h
  intro st st' hst hstep
  have hconfined := confined_step (s := s) (d := d) hclosed hst
  rw [hstep] at hconfined
  exact hconfined

/-- A confined moment looks up nothing but places of the table. -/
theorem Running.Confined.within_target (hclosed : t.Closed) (h : st.Confined t) :
    t.Within st.target?.toList := by
  obtain ⟨⟨p, hp, hname, hconfined⟩, hdefault⟩ := h
  have hlinked : ∀ r ∈ Statement.referencesAll p.statements, t.Within r.link.toList :=
    hclosed p hp
  have hnone : t.Within (none : Option PolicyId).toList := by
    intro id hid
    cases hid
  unfold Running.target?
  split <;> rename_i hcontrol <;> try rw [hcontrol] at hconfined
  · exact hlinked _ (hconfined.1.head.2 List.mem_cons_self)
  · exact hlinked _ (hconfined.1 List.mem_cons_self)
  · exact hlinked _ (hconfined.1 List.mem_cons_self)
  · exact hlinked _ (hconfined.1 List.mem_cons_self)
  · exact hnone
  · exact hdefault
  · exact hnone

end

end Machine

/-! ## Evaluations -/

namespace Table.Closed

variable {t : Table} {s : Settings} {d : Direction} {policy : String} {route : Route}

/-- Whatever place an evaluation looks up, there is a policy. -/
theorem get?_target (h : t.Closed) {n : Nat} {st : Machine.Running} {id : PolicyId}
    (hafter : Machine.after t s d policy route n = .running st) (htarget : st.target? = some id) :
    ∃ p, t.get? id = some p := by
  have hwithin := (Machine.confined_after h policy route n hafter).within_target h
  have hid : id.index < t.size := hwithin id (by rw [htarget]; exact List.mem_cons_self)
  exact ⟨t.policies[id.index], List.getElem?_eq_getElem hid⟩

/-- An evaluation can only fail in a write of the policy that it names, with an update that does
not fit the field. -/
theorem of_evaluate_error (h : t.Closed) {e : MalformedPolicy}
    (hevaluate : (t.evaluate s policy route d).2 = .error e) :
    ∃ n st notices p field update ss next,
      Machine.after t s d policy route n = .running st ∧
      Machine.step t s d (.running st) = .halted notices (.error e) ∧
      st.control = .runs (.write field update :: ss) next ∧
      p ∈ t.policies ∧ p.name = e.policy ∧
      (field, update) ∈ Statement.writesAll p.statements ∧
      update.fits field = false ∧ e.reason = update.misfit field := by
  obtain ⟨n, notices, result, hafter, hresult⟩ := Machine.exists_halted t s d policy route
  rw [hresult] at hevaluate
  cases result with
  | ok final => cases hevaluate
  | error e' =>
    cases hevaluate
    rcases Machine.exists_last hafter with hstart | ⟨m, st, hst, hstep⟩
    · cases hstart
    · have heffect := Machine.effect_step (t := t) (s := s) (d := d) st
      rw [hstep] at heffect
      cases heffect with
      | fails _ _ field update ss next hcontrol hwrite =>
        obtain ⟨hmisfit, rfl⟩ := Evaluation.write_eq_error_iff.mp hwrite
        obtain ⟨⟨p, hp, hname, hconfined⟩, -⟩ := Machine.confined_after h policy route m hst
        rw [hcontrol] at hconfined
        have hmem : (field, update) ∈ Statement.writesAll p.statements :=
          hconfined.1.head.1 List.mem_cons_self
        exact ⟨m, st, notices, p, field, update, ss, next, hst, hstep, hcontrol, hp, hname, hmem,
          hmisfit, rfl⟩

end Table.Closed

end RoutePolicy
