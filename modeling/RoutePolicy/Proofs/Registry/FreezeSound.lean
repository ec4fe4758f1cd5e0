import RoutePolicy.Proofs.Evaluation.Entering
import RoutePolicy.Proofs.Registry.ByName
import RoutePolicy.Proofs.Registry.Linked
import RoutePolicy.Proofs.Table.Frozen

/-!
# Freezing keeps the meaning of a registry

The evaluation on a frozen table follows links from place to place; the interpretation by name
looks every target up.  They give the same decision or failure and the same diagnostics.

* `Simulates` — a computation by name does what an evaluation does, where an environment of the
  table stands for the state in which its default policy has its name;
* `Mirrors.simulates_holds`, `Mirrors.simulates_runAll` — conditions and programs, by induction on
  the syntax before it is linked;
* `Registry.simulates_runByName`, `Registry.runFromByName_runFrom` — policies under a stack of
  callers, and top-level runs, by induction on what is not yet visited;
* `Registry.evaluate_freeze` — whole evaluations.
-/

set_option autoImplicit false

namespace RoutePolicy

open ByName

namespace Table

/-- The default policy of an environment is a place of the table. -/
def Holds (t : Table) (env : Environment) : Prop :=
  ∀ id, env.defaultPolicy = some id → id.index < t.size

/-- The state by name that an environment stands for. -/
def stateOf (t : Table) (env : Environment) : State where
  route := env.route
  overlay := env.overlay
  defaultAction := env.defaultAction
  defaultPolicy := env.defaultPolicy.map t.nameOf

end Table

/-- A computation by name does what an evaluation does: it has the same value or failure, it
records the same diagnostics, and it ends in the state that the environment then stands for. -/
def Simulates {α : Type} (t : Table) (x : Evaluation α) (y : Interpretation α) : Prop :=
  ∀ env log, t.Holds env →
    (∀ a env', (x env).result = .ok (a, env') → t.Holds env') ∧
    y (t.stateOf env) log =
      ((x env).result.map (Prod.map id t.stateOf), log ++ diagnosticsOf (x env).notices)

namespace Simulates

variable {α β : Type} {t : Table}

protected theorem pure (a : α) : Simulates t (pure a) (pure a) := by
  intro env log h
  refine ⟨fun a' env' h' => ?_, ?_⟩
  · cases h'
    exact h
  · show (Except.ok (a, t.stateOf env), log) =
      (Except.ok (a, t.stateOf env), log ++ diagnosticsOf [])
    rw [diagnosticsOf, List.filterMap_nil, List.append_nil]

protected theorem bind {x : Evaluation α} {y : Interpretation α} {f : α → Evaluation β}
    {g : α → Interpretation β} (hx : Simulates t x y) (hf : ∀ a, Simulates t (f a) (g a)) :
    Simulates t (x >>= f) (y >>= g) := by
  intro env log h
  obtain ⟨hholds, hy⟩ := hx env log h
  rw [Evaluation.bind_apply]
  rw [bind_apply, hy]
  rcases hrun : x env with ⟨notices, e | ⟨a, env'⟩⟩
  · refine ⟨fun _ _ h' => ?_, rfl⟩
    cases h'
  · have hholds' := hholds a env' (by rw [hrun])
    refine ⟨(hf a env' (log ++ diagnosticsOf notices) hholds').1, ?_⟩
    refine (hf a env' (log ++ diagnosticsOf notices) hholds').2.trans ?_
    rw [diagnosticsOf_append, List.append_assoc]

protected theorem map (f : α → β) {x : Evaluation α} {y : Interpretation α}
    (hx : Simulates t x y) : Simulates t (f <$> x) (y >>= fun a => pure (f a)) := by
  rw [map_eq_pure_bind]
  exact hx.bind fun a => .pure (f a)

/-- Both sides may look at what they have. -/
theorem get_bind {f : Environment → Evaluation β} {g : State → Interpretation β}
    (h : ∀ env, t.Holds env → Simulates t (f env) (g (t.stateOf env))) :
    Simulates t (Evaluation.get >>= f) (get >>= g) :=
  fun env log henv => h env henv env log henv

protected theorem modify {f : Environment → Environment} {g : State → State}
    (hf : ∀ env, t.Holds env → t.Holds (f env))
    (hg : ∀ env, g (t.stateOf env) = t.stateOf (f env)) :
    Simulates t (Evaluation.modify f) (modify g) := by
  intro env log h
  refine ⟨fun a env' h' => ?_, ?_⟩
  · cases h'
    exact hf env h
  · show (Except.ok ((), g (t.stateOf env)), log) =
      (Except.ok ((), t.stateOf (f env)), log ++ diagnosticsOf [])
    rw [hg, diagnosticsOf, List.filterMap_nil, List.append_nil]

protected theorem fail (e : MalformedPolicy) :
    Simulates t (Evaluation.fail e : Evaluation α) (throw e) := by
  intro env log h
  refine ⟨fun a env' h' => ?_, ?_⟩
  · cases h'
  · show (Except.error e, log) = (Except.error e, log ++ diagnosticsOf [])
    rw [diagnosticsOf, List.filterMap_nil, List.append_nil]

protected theorem report {notices : List Notice} {d : Diagnostic}
    (hd : diagnosticsOf notices = [d]) :
    Simulates t (Evaluation.report notices) (record d) := by
  intro env log h
  refine ⟨fun a env' h' => ?_, ?_⟩
  · cases h'
    exact h
  · show (Except.ok ((), t.stateOf env), log ++ [d]) =
      (Except.ok ((), t.stateOf env), log ++ diagnosticsOf notices)
    rw [hd]

/-- Events are no diagnostics: nothing stands for a report of events. -/
theorem report_bind {notices : List Notice} (hd : diagnosticsOf notices = [])
    {x : Evaluation β} {y : Interpretation β} (hx : Simulates t x y) :
    Simulates t (Evaluation.report notices >>= fun _ => x) y := by
  intro env log h
  have hrun : (Evaluation.report notices >>= fun _ => x) env =
      ⟨notices ++ (x env).notices, (x env).result⟩ := rfl
  rw [hrun]
  refine ⟨(hx env log h).1, (hx env log h).2.trans ?_⟩
  rw [diagnosticsOf_append, hd, List.nil_append]

end Simulates

/-! ## Programs -/

/-- What a policy knows by name is what it knows in the table: it enters the same policies. -/
structure Mirrors (r : Registry) (ctx : Context) (c : ByName.Caller) : Prop where
  policy_eq : c.policy = ctx.policy
  inCall_eq : c.inCall = ctx.inCall
  defined_eq : ∀ name, c.defined name = (placeOf r.names name).isSome
  enter : ∀ name, Simulates r.table (ctx.visit (.placed r.names name)) (c.enter name)

namespace Mirrors

variable {r : Registry} {ctx : Context} {c : ByName.Caller}

theorem simulates_call (m : Mirrors r ctx c) {target : Reference} (h : target.link = none) :
    Simulates r.table (ctx.call (target.linkOrKeep r.names)) (ByName.call c target.name) := by
  have hvisit : ctx.visit (target.linkOrKeep r.names) =
      ctx.visit (.placed r.names target.name) := by
    rw [Context.visit, target.link_linkOrKeep r.names h]
    rfl
  rw [Context.call, hvisit]
  refine (m.enter target.name).bind fun entry => ?_
  rcases entry with _ | _ | ⟨callee, _ | action | verdict⟩ <;> exact .pure _

theorem simulates_ask (m : Mirrors r ctx c) (name : String) :
    Simulates r.table (ctx.askNamed r.names name) (ByName.ask c name) := by
  refine Simulates.get_bind fun before hbefore => ?_
  refine (m.enter name).bind fun entry => ?_
  cases entry with
  | absent => exact .pure _
  | refused => exact .pure _
  | ran callee flow =>
    refine Simulates.bind (.modify (fun env _ => hbefore) fun env => rfl) fun _ => ?_
    exact .report_bind rfl (.pure _)

theorem simulates_askFirst (m : Mirrors r ctx c) {targets : List Reference}
    (h : ∀ t ∈ targets, t.link = none) :
    Simulates r.table
      (Verdict.isTrue <$> ctx.askFirst (targets.filterMap (·.link? r.names)))
      (ByName.askFirst c targets) := by
  rw [ctx.askFirst_link? r.names h]
  induction targets with
  | nil => exact .pure false
  | cons t ts ih =>
    rw [List.map_cons, Context.askFirst, ctx.ask_linkOrKeep r.names (h t List.mem_cons_self),
      map_bind]
    refine (m.simulates_ask t.name).bind fun v => ?_
    cases v with
    | unmatched => exact ih fun t' ht' => h t' (List.mem_cons_of_mem _ ht')
    | matched b => exact .pure b

theorem simulates_askAll (m : Mirrors r ctx c) {targets : List Reference}
    (h : ∀ t ∈ targets, t.link = none) :
    Simulates r.table (ctx.askAll (targets.map (·.linkOrKeep r.names)))
      (ByName.askAll c targets) := by
  induction targets with
  | nil => exact .pure true
  | cons t ts ih =>
    rw [List.map_cons, Context.askAll, ctx.ask_linkOrKeep r.names (h t List.mem_cons_self)]
    refine (m.simulates_ask t.name).bind fun v => ?_
    rcases v with (_ | _) | _
    · exact .pure false
    · exact ih fun t' ht' => h t' (List.mem_cons_of_mem _ ht')
    · exact .pure false

mutual

theorem simulates_holds (m : Mirrors r ctx c) : (a : Condition) →
    (∀ t ∈ a.references, t.link = none) →
    Simulates r.table (a.holds r.names ctx) (ByName.holds c a)
  | .literal b, _ => by
    rw [Condition.holds_literal]
    exact .pure b
  | .test p, _ => by
    rw [Condition.holds_test, map_eq_pure_bind]
    exact .get_bind fun env _ => .pure _
  | .not a, h => by
    rw [Condition.holds_not]
    exact (m.simulates_holds a h).map _
  | .all cs, h => by
    rw [Condition.holds_all]
    exact m.simulates_holdEach true cs h
  | .any cs, h => by
    rw [Condition.holds_any]
    exact m.simulates_holdEach false cs h
  | .firstMatch targets, h => by
    rw [Condition.holds_firstMatch]
    exact m.simulates_askFirst h
  | .allMatch [], _ => by
    rw [Condition.holds_allMatch]
    exact .pure false
  | .allMatch (t :: ts), h => by
    rw [Condition.holds_allMatch]
    exact m.simulates_askAll h
  | .callPolicy target, h => by
    rw [Condition.holds_callPolicy, ctx.ask_linkOrKeep r.names (h target List.mem_cons_self)]
    exact (m.simulates_ask target.name).map _
  | .inCall, _ => by
    rw [Condition.holds_inCall, ← m.inCall_eq]
    exact .pure _

theorem simulates_holdEach (m : Mirrors r ctx c) (neutral : Bool) : (cs : List Condition) →
    (∀ t ∈ Condition.referencesAll cs, t.link = none) →
    Simulates r.table (Condition.holdsEach r.names ctx neutral cs) (ByName.holdEach c neutral cs)
  | [], _ => .pure neutral
  | a :: cs, h => by
    rw [Condition.referencesAll] at h
    refine (m.simulates_holds a fun t ht => h t (List.mem_append_left _ ht)).bind fun b => ?_
    refine (m.simulates_holdEach neutral cs fun t ht => h t (List.mem_append_right _ ht)).bind
      fun bs => ?_
    exact .pure _

end

theorem simulates_write (m : Mirrors r ctx c) (field : RouteField) (update : Update) :
    Simulates r.table (Evaluation.write ctx.policy field update)
      (ByName.write c field update) := by
  rw [Evaluation.write_eq, ByName.write, m.policy_eq]
  refine .get_bind fun env henv => ?_
  simp only [Table.stateOf]
  cases update.compute (env.route.get field) with
  | none => exact .fail _
  | some value =>
    simp only
    cases env.route.write field value with
    | error misfit => exact .fail _
    | ok route => exact .modify (fun _ _ => henv) (fun _ => rfl)

end Mirrors

theorem simulates_control (t : Table) (kind : Control) :
    Simulates t kind.run (ByName.control kind) := by
  cases kind with
  | defaultAccept => exact .bind (.modify (fun _ h => h) fun _ => rfl) fun _ => .pure _
  | defaultReject => exact .bind (.modify (fun _ h => h) fun _ => rfl) fun _ => .pure _
  | _ => exact .pure _

namespace Mirrors

variable {r : Registry} {ctx : Context} {c : ByName.Caller}

theorem simulates_setDefaultPolicy (m : Mirrors r ctx c) (target : Reference) :
    Simulates r.table ((Statement.setDefaultPolicy target).perform r.names ctx)
      (ByName.run c (.setDefaultPolicy target)) := by
  rw [Statement.perform_setDefaultPolicy, ByName.run, m.defined_eq]
  cases hp : placeOf r.names target.name with
  | none => exact .pure _
  | some id =>
    obtain ⟨hl, hname⟩ := r.nameOf_of_placeOf hp
    refine Simulates.bind (.modify (fun env _ id' h' => ?_) fun env => ?_) fun _ => .pure _
    · cases h'
      exact hl
    · simp [Table.stateOf, hname]

mutual

theorem simulates_run (m : Mirrors r ctx c) : (s : Statement) →
    (∀ t ∈ s.references, t.link = none) →
    Simulates r.table (s.perform r.names ctx) (ByName.run c s)
  | .branch guard a b, h => by
    rw [Statement.perform_branch]
    rw [Statement.references] at h
    refine (m.simulates_holds guard fun t ht =>
      h t (List.mem_append_left _ (List.mem_append_left _ ht))).bind fun taken => ?_
    rcases taken with _ | _
    · exact m.simulates_runAll b fun t ht => h t (List.mem_append_right _ ht)
    · exact m.simulates_runAll a fun t ht =>
        h t (List.mem_append_left _ (List.mem_append_right _ ht))
  | .write field update, _ => by
    rw [Statement.perform_write]
    exact (m.simulates_write field update).bind fun _ => .pure _
  | .setDefaultPolicy target, _ => m.simulates_setDefaultPolicy target
  | .call target, h => by
    rw [Statement.perform_call r.names ctx (h target List.mem_cons_self)]
    exact m.simulates_call (h target List.mem_cons_self)
  | .comment text, _ => by
    rw [Statement.perform_comment]
    exact .pure _
  | .control kind, _ => by
    rw [Statement.perform_control]
    exact simulates_control r.table kind

theorem simulates_runAll (m : Mirrors r ctx c) : (ss : List Statement) →
    (∀ t ∈ Statement.referencesAll ss, t.link = none) →
    Simulates r.table (Statement.performAll r.names ctx ss) (ByName.runAll c ss)
  | [], _ => by
    rw [Statement.performAll_nil]
    exact .pure _
  | s :: ss, h => by
    rw [Statement.performAll_cons]
    rw [Statement.referencesAll] at h
    refine (m.simulates_run s fun t ht => h t (List.mem_append_left _ ht)).bind fun flow => ?_
    cases flow with
    | fallsThrough => exact m.simulates_runAll ss fun t ht => h t (List.mem_append_right _ ht)
    | exits action => exact .pure _
    | returns verdict => exact .pure _

end

end Mirrors

/-! ## Policies and top-level runs -/

namespace Registry

variable {r : Registry}

theorem contains_eq (name : String) : r.contains name = (placeOf r.names name).isSome := by
  rw [contains]
  cases hp : placeOf r.names name with
  | none => rw [r.get?_of_placeOf_none hp]; rfl
  | some id =>
    obtain ⟨p, q, hget, -⟩ := r.get?_of_placeOf hp
    rw [hget]; rfl

theorem cycleNotices_eq (policy : String) (path : List PolicyId) :
    diagnosticsOf (r.table.cycleNotices policy path) =
      [cycle policy (path.map r.table.nameOf)] := rfl

/-- A policy does the same under a stack of callers and under the stack of their names. -/
theorem simulates_runByName (hr : r.Unlinked) (s : Settings) {stack : List PolicyId}
    (hstack : r.table.Within stack) {p q : Policy} (hp : p ∈ r.policies)
    (hq : q.LinkedFrom r.names p) :
    Simulates r.table (r.table.runPolicy s stack q)
      (r.runByName s (stack.map r.table.nameOf) p) := by
  induction hn : r.table.unvisited stack using Nat.strongRecOn generalizing stack p q with
  | ind n ih =>
    subst hn
    rw [Table.runPolicy_eq, hq.runAll_eq, hq.name_eq, runByName_eq]
    refine Mirrors.simulates_runAll ⟨rfl, ?_, contains_eq, fun name => ?_⟩ p.statements (hr p hp)
    · simp [callerByName, Table.context]
    show Simulates r.table _ (r.enterByName s (stack.map r.table.nameOf) p.name name)
    cases hplace : placeOf r.names name with
    | none =>
      have hvisit : (r.table.context s stack p.name).visit (.placed r.names name) =
          pure .absent := by
        rw [Context.visit, Reference.placed, hplace]
      rw [hvisit, enterByName, r.get?_of_placeOf_none hplace]
      exact .pure _
    | some id =>
      obtain ⟨callee, linked, hget, hmem, hname, ht, hlinked⟩ := r.get?_of_placeOf hplace
      have hvisit : (r.table.context s stack p.name).visit (.placed r.names name) =
          r.table.enter s stack p.name id := by
        rw [Context.visit, Reference.placed, hplace]
        rfl
      have hnames : (stack ++ [id]).map r.table.nameOf = stack.map r.table.nameOf ++ [name] := by
        rw [List.map_append, List.map_singleton, (r.nameOf_of_placeOf hplace).2]
      rw [hvisit, Table.enter, enterByName, hget, ht]
      -- distinct places have distinct names, so that both sides refuse the same calls
      simp only [r.mem_map_nameOf_iff hstack hplace, List.length_map]
      by_cases hcycle : id ∈ stack
      · rw [if_pos hcycle, if_pos hcycle, ← hnames]
        exact .bind (.report (cycleNotices_eq p.name _)) fun _ => .pure _
      by_cases hdepth : s.maxCallDepth ≤ stack.length - 1
      · rw [if_neg hcycle, if_neg hcycle, if_pos hdepth, if_pos hdepth]
        exact .bind (.report rfl) fun _ => .pure _
      rw [if_neg hcycle, if_neg hcycle, if_neg hdepth, if_neg hdepth, ← hnames]
      have hless := Table.unvisited_append_lt hcycle (Table.index_lt_of_get? ht)
      refine (ih _ hless (hstack.append ht) hmem hlinked rfl).bind fun flow => ?_
      rw [hlinked.name_eq, hname]
      exact .pure _

theorem holds_freshen (t : Table) (s : Settings) (d : Direction) (policy : String)
    (env : Environment) : t.Holds (Table.freshen s d policy env) := by
  intro id h
  cases h

theorem stateOf_freshen (t : Table) (s : Settings) (d : Direction) (policy : String)
    (env : Environment) :
    t.stateOf (Table.freshen s d policy env) =
      { t.stateOf env with
        defaultAction := s.defaultAction.getD d.conventionalAction, defaultPolicy := none } := by
  rw [Table.freshen, Table.initialAction]
  cases s.defaultAction <;> rfl

/-- What comes after a top-level run is the same by name: the end of the evaluation, the refusal
of a default policy, or the top-level run of the default policy of the same name. -/
theorem endByName_eq (s : Settings) (d : Direction)
    {visited : List PolicyId} (hvisited : r.table.Within visited)
    (p : Policy) (flow : Flow) {env : Environment} (henv : r.table.Holds env)
    (log : List Diagnostic) :
    match r.table.ending visited env flow with
    | .decides action => r.endByName s d (visited.map r.table.nameOf) p flow (r.table.stateOf env)
        log = (.ok (action, r.table.stateOf env), log)
    | .repeats next => r.endByName s d (visited.map r.table.nameOf) p flow (r.table.stateOf env)
        log = (.ok (.reject, r.table.stateOf env),
          log ++ [cycle p.name ((visited ++ [next]).map r.table.nameOf)])
    | .fallsTo next q => ∃ p' ∈ r.policies, q.LinkedFrom r.names p' ∧
        r.endByName s d (visited.map r.table.nameOf) p flow (r.table.stateOf env) log =
          r.runFromByName s d ((visited ++ [next]).map r.table.nameOf) p' (r.table.stateOf env) log
    := by
  have hstate : (r.table.stateOf env).defaultPolicy = env.defaultPolicy.map r.table.nameOf := rfl
  cases flow with
  | exits action => rfl
  | _ =>
    cases hnext : env.defaultPolicy with
    | none =>
      simp only [Table.ending, hnext, endByName, bind_apply, get_apply, hstate, Option.map_none]
      rfl
    | some next =>
      have hplace := r.placeOf_nameOf (henv next hnext)
      obtain ⟨p', q, hget, hmem, -, ht, hlinked⟩ := r.get?_of_placeOf hplace
      have hseen := r.mem_map_nameOf_iff hvisited hplace
      simp only [Table.ending, hnext, ht, endByName, bind_apply, get_apply, hstate, Option.map_some,
        hseen, hget, List.map_append, List.map_singleton]
      by_cases hv : next ∈ visited
      · simp only [if_pos hv, bind_apply, record_apply, pure_apply]
      · simp only [if_neg hv]
        exact ⟨p', hmem, hlinked, rfl⟩

/-- A top-level run and the default policies after it do the same, when the same policies had
their runs before. -/
theorem runFromByName_runFrom (hr : r.Unlinked) (s : Settings) (d : Direction)
    {visited : List PolicyId} (hvisited : r.table.Within visited)
    {id : PolicyId} {p q : Policy} (hid : r.table.get? id = some q) (hp : p ∈ r.policies)
    (hq : q.LinkedFrom r.names p) (env : Environment) (log : List Diagnostic) :
    r.runFromByName s d (visited.map r.table.nameOf) p (r.table.stateOf env) log =
      ((r.table.runFrom s d visited id q env).2.map
          (fun c => (c.action, r.table.stateOf c.environment)),
        log ++ diagnosticsOf (r.table.runFrom s d visited id q env).1) := by
  induction hn : r.table.unvisited visited using Nat.strongRecOn
    generalizing visited id p q env log with
  | ind n ih =>
    subst hn
    have hname : [id].map r.table.nameOf = [p.name] := by
      rw [List.map_singleton, Table.nameOf, hid]
      exact congrArg (fun n => [n]) hq.name_eq
    obtain ⟨hholds, hrun⟩ := simulates_runByName hr s (Table.within_singleton hid) hp hq
      (Table.freshen s d q.name env) log (holds_freshen r.table s d q.name env)
    rw [hname, stateOf_freshen] at hrun
    rw [runFromByName_eq, bind_apply, modify_apply]
    simp only
    rw [bind_apply, hrun, Table.runFrom_eq]
    rcases hres : r.table.runPolicy s [id] q (Table.freshen s d q.name env) with
      ⟨ran, e | ⟨flow, env'⟩⟩
    · simp only [Except.map, diagnosticsOf_append, Table.diagnosticsOf_startNotices,
        List.nil_append]
    have henv' : r.table.Holds env' := hholds flow env' (by rw [hres])
    have hend := endByName_eq s d hvisited p flow henv' (log ++ diagnosticsOf ran)
    simp only [Except.map, Prod.map_apply, id_eq]
    cases hending : r.table.ending visited env' flow with
    | decides action =>
      simp only [hending] at hend ⊢
      rw [hend, diagnosticsOf_append, diagnosticsOf_append, Table.diagnosticsOf_startNotices,
        Table.diagnosticsOf_finish, List.nil_append, List.append_nil]
    | repeats next =>
      simp only [hending] at hend ⊢
      rw [hend, diagnosticsOf_append, diagnosticsOf_append, diagnosticsOf_append,
        Table.diagnosticsOf_startNotices, Table.diagnosticsOf_finish, cycleNotices_eq, hq.name_eq,
        List.nil_append, List.append_nil, List.append_assoc]
    | fallsTo next q' =>
      simp only [hending] at hend ⊢
      obtain ⟨p', hp', hq', hrest⟩ := hend
      obtain ⟨hv, hget⟩ := r.table.of_ending_fallsTo hending
      have hless := Table.unvisited_append_lt hv (Table.index_lt_of_get? hget)
      rw [hrest, ih _ hless (hvisited.append hget) hget hp' hq' env' _ rfl, diagnosticsOf_append,
        diagnosticsOf_append, Table.diagnosticsOf_startNotices, diagnosticsOf_event,
        List.nil_append, List.append_assoc]
      rfl

/-- **Freezing keeps the meaning of a registry.**  Whatever the policies are, if their references
are not linked yet, an evaluation on the frozen table gives the same decision or the same failure
and the same diagnostics as the interpretation that looks every target up by its name. -/
theorem evaluate_freeze (r : Registry) (hr : r.Unlinked) (s : Settings) (policy : String)
    (route : Route) (d : Direction) :
    ((r.freeze.2.evaluate s policy route d).2,
        diagnosticsOf (r.freeze.2.evaluate s policy route d).1) =
      r.evaluateByName s policy route d := by
  show ((r.table.evaluate s policy route d).2,
    diagnosticsOf (r.table.evaluate s policy route d).1) = _
  rw [Table.evaluate, evaluateByName, r.idOf?_table]
  cases hplace : placeOf r.names policy with
  | none =>
    rw [r.get?_of_placeOf_none hplace]
    rfl
  | some id =>
    obtain ⟨p, q, hget, hp, hname, ht, hq⟩ := r.get?_of_placeOf hplace
    have hrun := runFromByName_runFrom hr s d (Table.within_singleton ht) ht hp hq
      (Table.startOf route) []
    have hnames : [id].map r.table.nameOf = [policy] := by
      rw [List.map_singleton, (r.nameOf_of_placeOf hplace).2]
    rw [hnames] at hrun
    rw [hget]
    have hstart : r.table.stateOf (Table.startOf route) = { route, defaultAction := .reject } := rfl
    rw [hstart] at hrun
    simp only [ht, hrun, List.nil_append, Prod.mk.injEq, and_true]
    cases (r.table.runFrom s d [id] id q (Table.startOf route)).2 <;> rfl

/-- Two policies that call each other, with references to a policy that is not there. -/
theorem evaluate_freeze_mutual :
    let r : Registry :=
      { policies := [
          { name := "a"
            statements := [
              .setDefaultPolicy (.named "b"),
              .branch (.firstMatch [.named "missing", .named "b"])
                [.write .metric (.increment 3)] [.call (.named "missing")]] },
          { name := "b"
            statements := [.branch (.callPolicy (.named "a")) [] [.control .returnTrue]] }]
        ascending := by decide }
    r.Unlinked ∧
    ((r.freeze.2.evaluate {} "a" {} .inbound).2,
        diagnosticsOf (r.freeze.2.evaluate {} "a" {} .inbound).1) =
      r.evaluateByName {} "a" {} .inbound := by
  intro r
  have hr : r.Unlinked := by decide
  exact ⟨hr, evaluate_freeze r hr {} "a" {} .inbound⟩

end Registry

end RoutePolicy
