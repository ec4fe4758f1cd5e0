import RoutePolicy.Proofs.Configuration.CompileSound
import RoutePolicy.Proofs.Configuration.Entries

/-!
# What `next-term` does

A `next-term` among the actions of a term is compiled to a comment.  A term that has not decided
goes on to the following one anyway, so the comment is enough as long as no other control clause
stands behind it; but one that does is run as if the `next-term` were not there, and can end the
policy.

* `ThenClause.control_append`, `ThenClause.control_eq_undecided` — control clauses one after the
  other;
* `Term.readAround` — what terms do around one whose actions control the evaluation in a given way;
* `PolicyStatement.runAll_nextTerm` — what a term with a `next-term` does;
* `PolicyStatement.accepts_behind_nextTerm` — an `accept` behind a `next-term`.
-/

set_option autoImplicit false

namespace RoutePolicy

namespace ThenClause

/-- The control clauses of two lists apply in order, the later ones as long as the earlier ones have
not decided. -/
theorem control_append (cs ds : List ThenClause) :
    control (cs ++ ds) = (control cs).thenIf .undecided (control ds) := by
  induction cs with
  | nil => exact (Evaluation.pure_thenIf _ _).symm
  | cons c cs ih =>
    cases c with
    | accept | reject | nextPolicy =>
      exact (Evaluation.pure_thenIf_of_ne (by decide) _).symm
    | defaultAccept | defaultReject =>
      rw [List.cons_append, control, control, Evaluation.bind_thenIf, ih]
    | _ => exact ih

/-- Without any control clause but `next-term` there is no decision. -/
theorem control_eq_undecided {cs : List ThenClause}
    (h : ∀ c ∈ cs, c.isControl = true → c = .nextTerm) : control cs = pure .undecided := by
  induction cs with
  | nil => rfl
  | cons c cs ih =>
    obtain ⟨hc, hcs⟩ := List.forall_mem_cons.mp h
    cases c with
    | accept | reject | nextPolicy | defaultAccept | defaultReject => cases hc rfl
    | _ => exact ih hcs

end ThenClause

/-- What terms do with a route, when the control clauses of the one in their middle do what
`decide` does: the terms before it, its filters, its writes and `decide` where it matches, and the
terms behind it. -/
def Term.readAround (lists : PrefixLists) (ask : String → Evaluation Verdict) (before : List Term)
    (t : Term) (decide : Evaluation Stance) (after : List Term) : Evaluation Stance :=
  (readAll lists ask before).thenIf .undecided <|
    (readFilters t.clauses).thenIf .undecided do
      if ← t.isMatched lists ask then do
        ThenClause.writeAll t.actions
        decide.thenIf .undecided (readAll lists ask after)
      else readAll lists ask after

theorem Term.readAll_around (lists : PrefixLists) (ask : String → Evaluation Verdict)
    (before : List Term) (t : Term) (after : List Term) :
    readAll lists ask (before ++ t :: after) =
      readAround lists ask before t (ThenClause.control t.actions) after := by
  rw [readAll_append, readAll, read, Evaluation.thenIf_assoc, Evaluation.bind_thenIf, readAround]
  congr 2
  refine bind_congr fun matched => ?_
  cases matched with
  | true => exact Evaluation.bind_thenIf _ _ _ _
  | false => exact Evaluation.pure_thenIf _ _

namespace PolicyStatement

/-- **What `next-term` does.**  In a term with a `next-term` among its actions, the writes are made,
and then the control clauses before and behind the `next-term` apply in order, as if it were not
there; the following terms are tried when none of them decided.  When nothing but further
`next-term`s stands behind it, only the control clauses before it count: evaluation moves on to the
following term unless one of them ended the policy. -/
theorem runAll_nextTerm (lists : PrefixLists) {s : PolicyStatement} {before after : List Term}
    {t : Term} {earlier later : List ThenClause} (hterms : s.allTerms = before ++ t :: after)
    (hactions : t.actions = earlier ++ .nextTerm :: later) (names : List String) (ctx : Context) :
    let ask := ctx.askNamed names
    let run := Statement.runAll ctx ((s.compile lists).link names).statements
    run = Stance.flow ctx.inCall <$> Term.readAround lists ask before t
      ((ThenClause.control earlier).thenIf .undecided (ThenClause.control later)) after ∧
    ((∀ c ∈ later, c.isControl = true → c = .nextTerm) →
      run = Stance.flow ctx.inCall <$>
        Term.readAround lists ask before t (ThenClause.control earlier) after) := by
  intro ask run
  have hrun : run = Stance.flow ctx.inCall <$> Term.readAround lists ask before t
      ((ThenClause.control earlier).thenIf .undecided (ThenClause.control later)) after := by
    have hcontrol : ThenClause.control t.actions =
        (ThenClause.control earlier).thenIf .undecided (ThenClause.control later) := by
      rw [hactions, ThenClause.control_append]
      rfl
    rw [← hcontrol, ← Term.readAll_around, ← hterms, readAll_allTerms]
    exact performAll_program names ctx lists s
  refine ⟨hrun, fun hlater => ?_⟩
  rw [hrun, ThenClause.control_eq_undecided hlater, Evaluation.thenIf_pure]

/-- A term whose `next-term` has a control clause before it and none but another `next-term`
behind it. -/
theorem runAll_nextTerm_moves_on :
    let t : Term := { actions := [.defaultAccept, .tag 1] ++ .nextTerm :: [.metric 2, .nextTerm] }
    let last : Term := { actions := [.reject] }
    let s : PolicyStatement := { name := "P", terms := [t], defaultTerm := some last }
    s.allTerms = [] ++ t :: [last] ∧
    ∀ ctx, Statement.runAll ctx ((s.compile .empty).link ["P"]).statements =
      Stance.flow ctx.inCall <$> Term.readAround .empty (ctx.askNamed ["P"]) [] t
        (ThenClause.control [.defaultAccept, .tag 1]) [last] := by
  intro t last s
  have hlater : ∀ c ∈ [ThenClause.metric 2, .nextTerm], c.isControl = true → c = .nextTerm := by
    decide
  have hterms : s.allTerms = [] ++ t :: [last] := rfl
  exact ⟨hterms, fun ctx => (runAll_nextTerm .empty hterms rfl ["P"] ctx).2 hlater⟩

/-- An `accept` behind a `next-term` ends the policy, where the following term would reject the
route. -/
theorem accepts_behind_nextTerm :
    let statement : PolicyStatement :=
      { name := "P", terms := [{ actions := [.nextTerm, .accept] }, { actions := [.reject] }] }
    let c : Configuration := { policyStatements := [statement] }
    ∃ notices t, c.convert = (notices, .ok t) ∧
      (t.evaluate {} "P" {} .inbound).2 = .ok ⟨.accept, .empty⟩ := by
  intro statement c
  have hnames : c.convert.2.map Table.names =
      .ok ["P", "~DEFAULT_ACCEPT~", "~DEFAULT_REJECT~"] := by decide
  obtain ⟨notices, t, hconvert, -⟩ := Configuration.exists_convert_of_map hnames
  obtain ⟨r, hconverted⟩ := Configuration.exists_converted hconvert
  have hstatement : statement ∈ c.policyStatements := List.mem_cons_self
  obtain ⟨id, p, -, hid, hp, -, hrun⟩ := hconverted.entry (hconverted.mem_statement hstatement)
  have hread : ∀ env, t.runPolicy {} [id] p env = ⟨[], .ok (.exits .accept, env)⟩ := by
    intro env
    rw [hrun]
    exact congrFun (performAll_program r.names _ .empty statement) env
  have hplace : t.idOf? "P" = some id := hid
  refine ⟨notices, t, hconvert, ?_⟩
  unfold Table.evaluate
  simp only [hplace, hp]
  rw [Table.runFrom_eq, hread]
  rfl

end PolicyStatement

end RoutePolicy
