import RoutePolicy.Proofs.Evaluation.Parallel
import Mathlib.Data.List.Forall2

/-!
# Tables that hold the same policies at other places

A renaming relates places of one table to places of another one, such that the policies at related
places have the same name and the same program up to references to related places.  It need not
relate every place: what no policy at a related place refers to may differ freely.

Evaluations that start at related places cannot be told apart by their writes, their failures and
their diagnostics.  This holds even when they start with different default actions; then the results
differ only where each is the default action that its own evaluation started with.

* `Table.Renaming` — the relation between two tables;
* `Table.Renaming.context_parallel`, `Table.Renaming.parallel_runPolicy` — policies at related
  places run in parallel, by induction on the policies that are not running yet;
* `Table.Renaming.runFrom_match`, `Table.Renaming.evaluate_match` — top-level runs and whole
  evaluations.
-/

set_option autoImplicit false

namespace RoutePolicy

variable {ρ : PolicyId → PolicyId → Prop}

/-- `q` is `p` with its references replaced by references to related places. -/
structure Policy.Renamed (ρ : PolicyId → PolicyId → Prop) (p q : Policy) : Prop where
  name_eq : p.name = q.name
  statements_eq : ∃ f, q.statements = Statement.mapReferencesAll f p.statements ∧
    ∀ r ∈ Statement.referencesAll p.statements, Option.Rel ρ r.link (f r).link

namespace Table

variable {t u : Table} {s s' : Settings}

/-- A relation between the places of two tables.  It relates each place to one place only and
conversely, and related places have the same name and hold policies that refer to related places,
if they hold any. -/
structure Renaming (t u : Table) (ρ : PolicyId → PolicyId → Prop) : Prop where
  place_eq_iff : ∀ {a b a' b'}, ρ a b → ρ a' b' → (a = a' ↔ b = b')
  nameOf_eq : ∀ {a b}, ρ a b → t.nameOf a = u.nameOf b
  policy : ∀ {a b}, ρ a b → Option.Rel (Policy.Renamed ρ) (t.get? a) (u.get? b)

namespace Renaming

/-! ## Lists of related places -/

section

variable (h : t.Renaming u ρ) {a b : PolicyId} {places places' : List PolicyId}

include h

theorem mem_iff (hab : ρ a b) (hplaces : List.Forall₂ ρ places places') :
    a ∈ places ↔ b ∈ places' := by
  induction hplaces with
  | nil => exact iff_of_false List.not_mem_nil List.not_mem_nil
  | cons hhead _ ih => rw [List.mem_cons, List.mem_cons, h.place_eq_iff hab hhead, ih]

theorem map_nameOf_eq (hplaces : List.Forall₂ ρ places places') :
    places.map t.nameOf = places'.map u.nameOf := by
  induction hplaces with
  | nil => rfl
  | cons hhead _ ih => rw [List.map_cons, List.map_cons, h.nameOf_eq hhead, ih]

theorem cycleNotices_eq (policy : String) (hplaces : List.Forall₂ ρ places places') :
    t.cycleNotices policy places = u.cycleNotices policy places' := by
  unfold cycleNotices
  rw [h.map_nameOf_eq hplaces]

end

theorem get?_cases (h : t.Renaming u ρ) {a b : PolicyId} (hab : ρ a b) :
    (t.get? a = none ∧ u.get? b = none) ∨
      ∃ p q, t.get? a = some p ∧ u.get? b = some q ∧ p.Renamed ρ q := by
  have hpolicies := h.policy hab
  generalize t.get? a = p? at hpolicies
  generalize u.get? b = q? at hpolicies
  cases hpolicies with
  | none => exact .inl ⟨rfl, rfl⟩
  | some hpq => exact .inr ⟨_, _, rfl, rfl, hpq⟩

theorem forall₂_concat {a b : PolicyId} {places places' : List PolicyId}
    (hplaces : List.Forall₂ ρ places places') (hab : ρ a b) :
    List.Forall₂ ρ (places ++ [a]) (places' ++ [b]) :=
  List.rel_append hplaces (.cons hab .nil)

/-! ## Runs -/

/-- Policies that run under stacks of related places have surroundings alike, when the policies that
they can enter run in parallel. -/
theorem context_parallel (h : t.Renaming u ρ) {E : Environment → Environment → Prop}
    (hs : s.maxCallDepth = s'.maxCallDepth) {stack stack' : List PolicyId}
    (hstack : List.Forall₂ ρ stack stack') (policy : String)
    (hrun : ∀ {a b p q}, ρ a b → a ∉ stack → t.get? a = some p → p.Renamed ρ q →
      Evaluation.Parallel E (t.runPolicy s (stack ++ [a]) p) (u.runPolicy s' (stack' ++ [b]) q)) :
    (t.context s stack policy).Parallel ρ E (u.context s' stack' policy) := by
  refine ⟨rfl, ?_, ?_⟩
  · simp only [context, hstack.length_eq]
  · intro a b hab
    show Evaluation.Parallel E (t.enter s stack policy a) (u.enter s' stack' policy b)
    unfold enter
    rcases h.get?_cases hab with ⟨hg, hu⟩ | ⟨callee, callee', hg, hu, hcallee⟩
    · rw [hg, hu]
      exact .pure _
    · simp only [hg, hu, h.mem_iff hab hstack, hs, hstack.length_eq,
        h.cycleNotices_eq policy (forall₂_concat hstack hab)]
      split
      · exact (Evaluation.Parallel.report _).bind fun _ => .pure _
      · rename_i hfresh
        split
        · exact (Evaluation.Parallel.report _).bind fun _ => .pure _
        · have hfresh' : a ∉ stack := (h.mem_iff hab hstack).not.mpr hfresh
          rw [hcallee.name_eq]
          exact (hrun hab hfresh' hg hcallee).bind fun _ => .pure _

/-- **Policies at related places run in parallel** under stacks of related places. -/
theorem parallel_runPolicy (h : t.Renaming u ρ) {E : Environment → Environment → Prop}
    (hE : Environment.Congruence ρ E) (hs : s.maxCallDepth = s'.maxCallDepth)
    {stack stack' : List PolicyId} (hstack : List.Forall₂ ρ stack stack') {p q : Policy}
    (hpq : p.Renamed ρ q) :
    Evaluation.Parallel E (t.runPolicy s stack p) (u.runPolicy s' stack' q) := by
  induction hn : t.unvisited stack using Nat.strongRecOn generalizing stack stack' p q with
  | ind n ih =>
    subst hn
    obtain ⟨f, hstatements, hlinks⟩ := hpq.statements_eq
    rw [runPolicy_eq, runPolicy_eq, hstatements, hpq.name_eq]
    refine Statement.parallel_runAll hE ?_ p.statements hlinks
    refine h.context_parallel hs hstack q.name fun hab hfresh hg hcallee => ?_
    have hless := unvisited_append_lt hfresh (index_lt_of_get? hg)
    exact ih _ hless (forall₂_concat hstack hab) hcallee rfl

end Renaming

end Table

/-! ## Default actions at the start -/

/-- The default action of a top-level run before any policy sets one. -/
def Settings.startingAction (s : Settings) (d : Direction) : Action :=
  s.defaultAction.getD d.conventionalAction

theorem Table.initialAction_snd (s : Settings) (d : Direction) (policy : String) :
    (initialAction s d policy).2 = s.startingAction d := by
  unfold initialAction Settings.startingAction
  cases s.defaultAction <;> rfl

/-- The actions are the same, or each is the one that its own evaluation started with. -/
def Action.SameOrFirst (first first' action action' : Action) : Prop :=
  action = action' ∨ action = first ∧ action' = first'

variable {first first' : Action}

/-- The environments are the same up to places that `ρ` relates and up to the default actions that
their evaluations started with. -/
structure Environment.SameButFirst (ρ : PolicyId → PolicyId → Prop) (first first' : Action)
    (env env' : Environment) : Prop where
  alike : env.Alike env'
  action : Action.SameOrFirst first first' env.defaultAction env'.defaultAction
  policy : Option.Rel ρ env.defaultPolicy env'.defaultPolicy

theorem Environment.congruence_sameButFirst :
    Environment.Congruence ρ (SameButFirst ρ first first') where
  alike h := h.alike
  write h _ _ := ⟨⟨rfl, rfl⟩, h.action, h.policy⟩
  setAction h _ := ⟨⟨h.alike.route_eq, h.alike.overlay_eq⟩, .inl rfl, h.policy⟩
  setPolicy h hplaces := ⟨⟨h.alike.route_eq, h.alike.overlay_eq⟩, h.action, .some hplaces⟩
  restore hbefore hafter :=
    ⟨⟨hafter.alike.route_eq, hafter.alike.overlay_eq⟩, hbefore.action, hbefore.policy⟩

/-! ## Top-level runs -/

/-- The decision that an evaluation ends with. -/
def Table.Completion.decision (c : Table.Completion) : Decision :=
  ⟨c.action, c.environment.overlay⟩

/-- Both evaluations fail the same way, or they make the same writes and differ at most in the
default actions that they started with. -/
inductive Decision.SameButFirst (first first' : Action) :
    Except MalformedPolicy Decision → Except MalformedPolicy Decision → Prop where
  | fails (e : MalformedPolicy) : SameButFirst first first' (.error e) (.error e)
  | decides {result result' : Action} (attributes : Overlay)
      (hresult : Action.SameOrFirst first first' result result') :
      SameButFirst first first' (.ok ⟨result, attributes⟩) (.ok ⟨result', attributes⟩)

theorem Decision.SameButFirst.outcomes {first first' : Action}
    {x y : Except MalformedPolicy Decision} (h : SameButFirst first first' x y) :
    (∃ e, x = .error e ∧ y = .error e) ∨
      ∃ result result' attributes, x = .ok ⟨result, attributes⟩ ∧ y = .ok ⟨result', attributes⟩ ∧
        Action.SameOrFirst first first' result result' := by
  cases h with
  | fails e => exact .inl ⟨e, rfl, rfl⟩
  | decides attributes hresult => exact .inr ⟨_, _, attributes, rfl, rfl, hresult⟩

theorem Decision.SameButFirst.eq {first : Action} {x y : Except MalformedPolicy Decision}
    (h : SameButFirst first first x y) : x = y := by
  cases h with
  | fails _ => rfl
  | decides _ hresult =>
    rcases hresult with rfl | ⟨rfl, rfl⟩
    · rfl
    · rfl

namespace Table

variable {t u : Table} {s s' : Settings} {d d' : Direction}

/-- The same comes after both top-level runs, at related places. -/
inductive Ending.Match (ρ : PolicyId → PolicyId → Prop) (first first' : Action) :
    Ending → Ending → Prop where
  | decides {action action' : Action} (haction : Action.SameOrFirst first first' action action') :
      Match ρ first first' (.decides action) (.decides action')
  | repeats {next next' : PolicyId} (hnext : ρ next next') :
      Match ρ first first' (.repeats next) (.repeats next')
  | fallsTo {next next' : PolicyId} {p q : Policy} (hnext : ρ next next') (hpq : p.Renamed ρ q) :
      Match ρ first first' (.fallsTo next p) (.fallsTo next' q)

namespace Renaming

theorem ending_match (h : t.Renaming u ρ) {visited visited' : List PolicyId}
    (hvisited : List.Forall₂ ρ visited visited') {env env' : Environment}
    (henv : env.SameButFirst ρ first first' env') (flow : Flow) :
    (t.ending visited env flow).Match ρ first first' (u.ending visited' env' flow) := by
  cases flow with
  | exits action => exact .decides (.inl rfl)
  | _ =>
    have hpolicy := henv.policy
    unfold ending
    generalize env.defaultPolicy = next? at hpolicy
    generalize env'.defaultPolicy = next'? at hpolicy
    cases hpolicy with
    | none => exact .decides henv.action
    | some hnext =>
      simp only [h.mem_iff hnext hvisited]
      split
      · exact .repeats hnext
      · rcases h.get?_cases hnext with ⟨hg, hu⟩ | ⟨p, q, hg, hu, hpq⟩
        · simp only [hg, hu]
          exact .decides henv.action
        · simp only [hg, hu]
          exact .fallsTo hnext hpq

/-- Top-level runs of policies at related places, with the default policies after them: whatever
default actions and directions they start with, they record the same diagnostics and fail the same
way or make the same writes. -/
theorem runFrom_match (h : t.Renaming u ρ) (hs : s.maxCallDepth = s'.maxCallDepth)
    {visited visited' : List PolicyId} (hvisited : List.Forall₂ ρ visited visited')
    {id id' : PolicyId} (hid : ρ id id') {p q : Policy} (hpq : p.Renamed ρ q)
    {env env' : Environment} (henv : env.Alike env') :
    diagnosticsOf (t.runFrom s d visited id p env).1 =
        diagnosticsOf (u.runFrom s' d' visited' id' q env').1 ∧
      Decision.SameButFirst (s.startingAction d) (s'.startingAction d')
        ((t.runFrom s d visited id p env).2.map Completion.decision)
        ((u.runFrom s' d' visited' id' q env').2.map Completion.decision) := by
  induction hn : t.unvisited visited using Nat.strongRecOn
    generalizing visited visited' id id' p q env env' with
  | ind n ih =>
    subst hn
    have hfresh : (freshen s d p.name env).SameButFirst ρ (s.startingAction d)
        (s'.startingAction d') (freshen s' d' q.name env') := by
      refine ⟨⟨henv.route_eq, henv.overlay_eq⟩, ?_, .none⟩
      exact .inr ⟨initialAction_snd s d p.name, initialAction_snd s' d' q.name⟩
    have hrun := h.parallel_runPolicy Environment.congruence_sameButFirst hs (.cons hid .nil) hpq
      _ _ hfresh
    rw [runFrom_eq, runFrom_eq]
    rcases hran : t.runPolicy s [id] p (freshen s d p.name env) with ⟨ran, result⟩
    rcases hran' : u.runPolicy s' [id'] q (freshen s' d' q.name env') with ⟨ran', result'⟩
    rw [hran, hran'] at hrun
    cases hrun with
    | fails _ e =>
      simp only [diagnosticsOf_append, diagnosticsOf_startNotices, true_and]
      exact .fails e
    | gives _ flow hafter =>
      have hending := h.ending_match hvisited hafter flow
      simp only
      generalize hend : t.ending visited _ flow = ending at hending
      generalize hend' : u.ending visited' _ flow = ending' at hending
      cases hending with
      | decides haction =>
        simp only [diagnosticsOf_append, diagnosticsOf_startNotices, diagnosticsOf_finish, true_and,
          Except.map, Completion.decision, hafter.alike.overlay_eq]
        exact .decides _ haction
      | repeats hnext =>
        simp only [diagnosticsOf_append, diagnosticsOf_startNotices, diagnosticsOf_finish,
          h.cycleNotices_eq q.name (forall₂_concat hvisited hnext), hpq.name_eq, true_and,
          Except.map, Completion.decision, hafter.alike.overlay_eq]
        exact .decides _ (.inl rfl)
      | fallsTo hnext hnextPolicy =>
        obtain ⟨hv, hg⟩ := of_ending_fallsTo t hend
        have hless := unvisited_append_lt hv (index_lt_of_get? hg)
        obtain ⟨hnotices, hresult⟩ := ih _ hless (forall₂_concat hvisited hnext) hnext hnextPolicy
          hafter.alike rfl
        simp only [diagnosticsOf_append, diagnosticsOf_startNotices, diagnosticsOf_event, hnotices,
          true_and]
        exact hresult

/-- Evaluations at related places record the same diagnostics.  They fail the same way, or they make
the same writes and differ at most in the default actions that they started with. -/
theorem evaluate_match (h : t.Renaming u ρ) (hs : s.maxCallDepth = s'.maxCallDepth)
    {policy : String} (hplace : Option.Rel ρ (t.idOf? policy) (u.idOf? policy)) (route : Route) :
    diagnosticsOf (t.evaluate s policy route d).1 =
        diagnosticsOf (u.evaluate s' policy route d').1 ∧
      Decision.SameButFirst (s.startingAction d) (s'.startingAction d')
        (t.evaluate s policy route d).2 (u.evaluate s' policy route d').2 := by
  unfold evaluate
  generalize t.idOf? policy = id? at hplace
  generalize u.idOf? policy = id'? at hplace
  cases hplace with
  | none => exact ⟨rfl, .decides _ (.inl rfl)⟩
  | some hid =>
    rcases h.get?_cases hid with ⟨hg, hu⟩ | ⟨p, q, hg, hu, hpq⟩
    · simp only [hg, hu, true_and]
      exact .decides _ (.inl rfl)
    · simp only [hg, hu]
      exact h.runFrom_match hs (.cons hid .nil) hid hpq ⟨rfl, rfl⟩

end Renaming

end Table

end RoutePolicy
