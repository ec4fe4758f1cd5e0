import RoutePolicy.Proofs.Configuration.Guard
import RoutePolicy.Proofs.Evaluation.Entering
import RoutePolicy.Proofs.Table.Frozen

/-!
# Compiled policy statements do what they say

The program of a policy statement does what the direct reading of the statement says, wherever it
runs: on top level or in a call, at any depth, on any route.

* `ThenClause.performAll_actionsOf` — actions, whose writes are sorted in front;
* `performAll_filters`, `performAll_compile` — the filters of a term, and the term;
* `PolicyStatement.thenIf_ending` — the statement at the end of every program decides nothing;
* `PolicyStatement.runPolicy_compile` — the policy of a statement in a frozen table.
-/

set_option autoImplicit false

namespace RoutePolicy

namespace Stance

/-- How control leaves a program that came to a stance, when the program ends with the statement
that tells a call from a top-level run. -/
def flow (inCall : Bool) : Stance → Flow
  | .exits action => .exits action
  | .nextPolicy => .returns .unmatched
  | .undecided => if inCall then .fallsThrough else .returns .unmatched

/-- The verdict of a policy statement inside a condition. -/
def verdict : Stance → Verdict
  | .exits .accept => .matched true
  | .exits .reject => .matched false
  | .nextPolicy | .undecided => .unmatched

theorem verdict_flow (inCall : Bool) (stance : Stance) :
    (stance.flow inCall).verdict = stance.verdict := by
  cases stance with
  | exits action => cases action <;> rfl
  | nextPolicy => rfl
  | undecided => cases inCall <;> rfl

theorem flow_eq_exits_iff (inCall : Bool) (stance : Stance) (action : Action) :
    stance.flow inCall = .exits action ↔ stance = .exits action := by
  cases stance with
  | exits action' => simp [flow]
  | nextPolicy => simp [flow]
  | undecided => cases inCall <;> simp [flow]

end Stance

/-- What a table answers to a policy that runs under a stack of callers and asks for the verdict
of the policy of a name. -/
def Table.answer (t : Table) (s : Settings) (stack : List PolicyId) (policy name : String) :
    Evaluation Verdict :=
  (t.context s stack policy).ask { name, link := t.idOf? name }

variable (names : List String) (ctx : Context)

/-- Inside of a program, control falls through as long as there is no decision. -/
theorem map_flow_thenIf (x y : Evaluation Stance) :
    Stance.flow true <$> x.thenIf .undecided y =
      (Stance.flow true <$> x).thenIf .fallsThrough (Stance.flow true <$> y) := by
  have hundecided : ∀ stance : Stance, stance.flow true = Stance.undecided.flow true →
      stance = .undecided := fun stance => by
    cases stance <;> simp [Stance.flow]
  exact Evaluation.map_thenIf hundecided x y

namespace ThenClause

/-- A write cannot fail, for a clause gives every attribute a value of its own shape. -/
theorem perform_write {c : ThenClause} (h : c.isControl = false) :
    c.statement.perform names ctx = (c.write >>= fun _ => pure .fallsThrough) := by
  apply Evaluation.ext
  intro env
  cases c <;> first
    | (simp [isControl] at h; done)
    | rfl

theorem write_of_isControl {c : ThenClause} (h : c.isControl = true) : c.write = pure () := by
  cases c <;> first
    | (simp [isControl] at h; done)
    | rfl

theorem performAll_writes (cs : List ThenClause) :
    Statement.performAll names ctx ((cs.filter fun c => !c.isControl).map statement) =
      (writeAll cs >>= fun _ => pure .fallsThrough) := by
  induction cs with
  | nil => simp [writeAll, Statement.performAll_nil]
  | cons c cs ih =>
    rw [writeAll, bind_assoc, ← ih]
    cases hc : c.isControl with
    | true =>
      rw [List.filter_cons_of_neg (by simp [hc]), write_of_isControl hc, pure_bind]
    | false =>
      rw [List.filter_cons_of_pos (by simp [hc]), List.map_cons, Statement.performAll_cons,
        perform_write names ctx hc, Evaluation.bind_thenIf]
      simp only [Evaluation.pure_thenIf]

theorem performAll_controls (cs : List ThenClause) :
    Statement.performAll names ctx ((cs.filter isControl).map statement) =
      Stance.flow true <$> control cs := by
  induction cs with
  | nil => simp [control, Statement.performAll_nil, Stance.flow]
  | cons c cs ih =>
    cases hc : c.isControl with
    | false =>
      rw [List.filter_cons_of_neg (by simp [hc]), ih]
      cases c <;> simp_all [isControl, control]
    | true =>
      rw [List.filter_cons_of_pos hc, List.map_cons, Statement.performAll_cons, ih]
      cases c <;>
        simp_all [isControl, control, statement, Statement.perform_control,
          Statement.perform_comment, Control.run, Evaluation.thenIf, Stance.flow]

/-- Compiled actions take the actions: sorting them puts the writes before the rest. -/
theorem performAll_actionsOf (cs : List ThenClause) :
    Statement.performAll names ctx (actionsOf cs) = Stance.flow true <$> take cs := by
  rw [actionsOf, List.map_append, Statement.performAll_append, performAll_writes,
    performAll_controls, Evaluation.bind_thenIf, take, map_bind]
  simp only [Evaluation.pure_thenIf]

end ThenClause

/-! ## Terms and statements -/

theorem performAll_guarded (guard : Condition) (actions : List ThenClause) :
    (Statement.guarded guard (actionsOf actions)).perform names ctx =
      Stance.flow true <$> (guard.holds names ctx >>= fun taken =>
        if taken then ThenClause.take actions else pure .undecided) := by
  rw [Statement.guarded, Statement.perform_branch, map_bind]
  refine bind_congr fun taken => ?_
  cases taken with
  | true => exact ThenClause.performAll_actionsOf names ctx actions
  | false => rw [if_neg Bool.false_ne_true, if_neg Bool.false_ne_true, Statement.performAll_nil,
      map_pure, Stance.flow, if_pos rfl]

theorem perform_filter (f : RouteFilter) :
    (Statement.guarded (.test (.prefixIn (.single f.range))) (actionsOf f.actions)).perform names
        ctx = Stance.flow true <$> f.read := by
  have htest : (Condition.test (.prefixIn (.single f.range))).holds names ctx =
      (fun env : Environment => f.range.selects env.route.network) <$> Evaluation.get := by
    rw [Condition.holds_test]
    simp [Predicate.holds, PrefixSet.contains, PrefixSet.single]
  rw [performAll_guarded, htest, RouteFilter.read]
  simp only [map_eq_pure_bind, bind_assoc, pure_bind]

theorem read_of_no_actions {f : RouteFilter} (h : f.actions = []) : f.read = pure .undecided := by
  have hidle : ∀ env : Environment, (if f.range.selects env.route.network
      then ThenClause.take [] else pure .undecided) = pure .undecided := by
    intro env
    split <;> rfl
  rw [RouteFilter.read, h]
  simp only [hidle]
  exact Evaluation.Silent.get.forget _

/-- Filters without actions are left out of the program. -/
theorem performAll_filters (cs : List FromClause) :
    Statement.performAll names ctx
        (((cs.filterMap FromClause.routeFilter?).filter fun f => !f.actions.isEmpty).map fun f =>
          .guarded (.test (.prefixIn (.single f.range))) (actionsOf f.actions)) =
      Stance.flow true <$> Term.readFilters cs := by
  induction cs with
  | nil => simp [Term.readFilters, Statement.performAll_nil, Stance.flow]
  | cons c cs ih =>
    cases c with
    | routeFilter f =>
      rw [List.filterMap_cons_some (f := FromClause.routeFilter?) rfl, Term.readFilters]
      cases hf : f.actions with
      | nil =>
        rw [List.filter_cons_of_neg (by simp [hf]), ih, read_of_no_actions hf,
          Evaluation.pure_thenIf]
      | cons a as =>
        rw [List.filter_cons_of_pos (by simp [hf]), List.map_cons, Statement.performAll_cons, ih,
          perform_filter, map_flow_thenIf]
    | _ => exact ih

/-- The part of a compiled term that is not about filters. -/
theorem performAll_body (lists : PrefixLists) (index : Nat) (t : Term) :
    Statement.performAll names ctx (match guardOf? lists index t.clauses with
      | none => actionsOf t.actions
      | some guard => [.guarded guard (actionsOf t.actions)]) =
        Stance.flow true <$> (t.isMatched lists (ctx.askNamed names) >>= fun matched =>
          if matched then ThenClause.take t.actions else pure .undecided) := by
  rw [← holds_operandsOf names ctx lists index t, guardOf?]
  cases operandsOf lists index t.clauses with
  | nil => simp [Condition.holdsEach, ThenClause.performAll_actionsOf]
  | cons c cs =>
    cases cs with
    | nil =>
      rw [Statement.performAll_singleton, performAll_guarded, Condition.holdsEach_singleton]
    | cons c' cs =>
      rw [Statement.performAll_singleton, performAll_guarded, Condition.holds_all]

/-- **A compiled term does what the term says.** -/
theorem performAll_compile (lists : PrefixLists) (index : Nat) (t : Term) :
    Statement.performAll names ctx (t.compile lists index) =
      Stance.flow true <$> t.read lists (ctx.askNamed names) := by
  have hheading : Statement.performAll names ctx
      (if t.name.isEmpty then [] else [Statement.comment ("term " ++ t.name)]) =
        pure .fallsThrough := by
    split
    · exact Statement.performAll_nil names ctx
    · rw [Statement.performAll_singleton, Statement.perform_comment]
  rw [Term.compile, Statement.performAll_append, Statement.performAll_append, hheading,
    Evaluation.pure_thenIf, Term.activeFilters, performAll_filters, Term.read, map_flow_thenIf]
  exact congrArg _ (performAll_body names ctx lists index t)

theorem performAll_terms (lists : PrefixLists) (ts : List Term)
    {program : Nat → Term → List Statement}
    (hprogram : ∀ i t, Statement.performAll names ctx (program i t) =
      Stance.flow true <$> Term.read lists (ctx.askNamed names) t) :
    Statement.performAll names ctx (ts.mapIdx program).flatten =
      Stance.flow true <$> Term.readAll lists (ctx.askNamed names) ts := by
  induction ts generalizing program with
  | nil => simp [Term.readAll, Statement.performAll_nil, Stance.flow]
  | cons t ts ih =>
    rw [List.mapIdx_cons, List.flatten_cons, Statement.performAll_append, hprogram,
      ih fun i t => hprogram (i + 1) t, Term.readAll, map_flow_thenIf]

theorem readAll_append (lists : PrefixLists) (ask : String → Evaluation Verdict)
    (ts us : List Term) : Term.readAll lists ask (ts ++ us) =
      (Term.readAll lists ask ts).thenIf .undecided (Term.readAll lists ask us) := by
  induction ts with
  | nil => rw [List.nil_append, Term.readAll, Evaluation.pure_thenIf]
  | cons t ts ih => rw [List.cons_append, Term.readAll, ih, Term.readAll, Evaluation.thenIf_assoc]

namespace PolicyStatement

theorem readAll_allTerms (lists : PrefixLists) (ask : String → Evaluation Verdict)
    (s : PolicyStatement) : Term.readAll lists ask s.allTerms = s.read lists ask := by
  rw [allTerms, readAll_append, read]
  congr 1
  cases s.defaultTerm with
  | none => rfl
  | some t =>
    cases ht : t.isEmpty with
    | true => simp [ht, Term.readAll]
    | false => simp [ht, Term.readAll, Evaluation.thenIf_pure]

/-- The statement at the end of a program makes no decision: it only lets a top-level run return,
where a call falls through. -/
theorem thenIf_ending (x : Evaluation Stance) :
    (Stance.flow true <$> x).thenIf .fallsThrough (Statement.performAll names ctx [ending]) =
      Stance.flow ctx.inCall <$> x := by
  have hending : Statement.performAll names ctx [ending] =
      pure (if ctx.inCall then .fallsThrough else .returns .unmatched) := by
    rw [Statement.performAll_singleton, ending, Statement.perform_branch, Condition.holds_inCall,
      pure_bind]
    cases ctx.inCall with
    | true => exact Statement.performAll_nil names ctx
    | false =>
      rw [if_neg Bool.false_ne_true, Statement.performAll_singleton, Statement.perform_control]
      rfl
  simp only [hending, Evaluation.thenIf, map_eq_pure_bind, bind_assoc, pure_bind]
  refine bind_congr fun stance => ?_
  cases stance <;> rfl

/-- The program of a policy statement does what the statement says. -/
theorem performAll_program (lists : PrefixLists) (s : PolicyStatement) :
    Statement.performAll names ctx (s.program lists) =
      Stance.flow ctx.inCall <$> s.read lists (ctx.askNamed names) := by
  rw [program, Statement.performAll_append,
    performAll_terms names ctx lists s.allTerms fun i t => performAll_compile names ctx lists i t,
    thenIf_ending, readAll_allTerms]

/-- **The policy of a statement does what the statement says.**  Under every stack of callers and
in every environment, a run of it in a frozen table has the effects of the direct reading, where
the table answers for the policies that the statement names.  The statement at the end of the
program changes nothing that is made of the run: a condition gets the verdict of the stance, and
only a decision ends the evaluation. -/
theorem runPolicy_compile (lists : PrefixLists) (statement : PolicyStatement) (r : Registry)
    (h : statement.compile lists ∈ r.policies) :
    ∃ id p, r.freeze.2.idOf? statement.name = some id ∧ r.freeze.2.get? id = some p ∧
      (∀ s stack, r.freeze.2.runPolicy s stack p =
        Stance.flow (0 < stack.length - 1) <$>
          statement.read lists (r.freeze.2.answer s stack statement.name)) ∧
      ∀ inCall (stance : Stance), (stance.flow inCall).verdict = stance.verdict ∧
        ∀ action, stance.flow inCall = .exits action ↔ stance = .exits action := by
  obtain ⟨id, hi⟩ : ∃ id : PolicyId, r.policies[id.index]? = some (statement.compile lists) :=
    (List.getElem?_of_mem h).imp' PolicyId.mk fun _ hi => hi
  have hplace : placeOf r.names statement.name = some id := r.placeOf_names_iff.mpr ⟨_, hi, rfl⟩
  obtain ⟨p, hp, hlinked⟩ := r.get?_table_of_some hi
  refine ⟨id, p, (r.idOf?_table _).trans hplace, hp, fun s stack => ?_, fun inCall stance =>
    ⟨stance.verdict_flow inCall, stance.flow_eq_exits_iff inCall⟩⟩
  have hname : p.name = statement.name := hlinked.name_eq
  have hanswer : r.freeze.2.answer s stack statement.name =
      (r.freeze.2.context s stack statement.name).askNamed r.names := by
    funext name
    rw [Table.answer, Context.askNamed, Reference.placed, Registry.freeze, r.idOf?_table]
  rw [Table.runPolicy_eq, hlinked.runAll_eq, hname, hanswer]
  exact performAll_program r.names _ lists statement

/-- A statement with two terms, the first of which asks the statement itself, in a registry of its
own. -/
theorem runPolicy_compile_recursive :
    let statement : PolicyStatement :=
      { name := "a"
        terms := [{ clauses := [.tag 1, .policy ["a"]], actions := [.accept, .metric 5] },
          { name := "last", actions := [.metricAdd 2, .nextPolicy] }] }
    let r := Registry.empty.insert (statement.compile .empty)
    statement.compile .empty ∈ r.policies ∧
    ∃ id p, r.freeze.2.idOf? statement.name = some id ∧ r.freeze.2.get? id = some p ∧
      (∀ s stack, r.freeze.2.runPolicy s stack p =
        Stance.flow (0 < stack.length - 1) <$>
          statement.read .empty (r.freeze.2.answer s stack statement.name)) ∧
      ∀ inCall (stance : Stance), (stance.flow inCall).verdict = stance.verdict ∧
        ∀ action, stance.flow inCall = .exits action ↔ stance = .exits action := by
  intro statement r
  have hmem : statement.compile .empty ∈ r.policies := List.mem_singleton.mpr rfl
  exact ⟨hmem, runPolicy_compile .empty statement r hmem⟩

end PolicyStatement

end RoutePolicy
