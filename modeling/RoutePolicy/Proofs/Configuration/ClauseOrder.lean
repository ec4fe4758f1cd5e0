import RoutePolicy.Proofs.Configuration.Reworded

/-!
# The order of match clauses does not matter

The match clauses of a term can be listed in any order, up to what has effects: the policies that
must all match are asked in order, those of a chain are asked in order, and route filters take their
own actions in order.  All other clauses only look at the route, and those of one kind are
alternatives.

* `Term.Reordered` — the same term with its clauses in another order;
* `Term.readFilters_eq` — only filters with actions do anything;
* `Term.Reordered.read_eq`, `Term.Reordered.notices` — the reading of a term, and its report;
* `PolicyStatement.compile_reordered` — policy statements.
-/

set_option autoImplicit false

namespace RoutePolicy

namespace Term

/-- The same term with its match clauses in another order, in which the clauses that ask policies
keep their order kind by kind, and so do the filters with actions. -/
structure Reordered (t t' : Term) : Prop where
  name_eq : t.name = t'.name
  actions_eq : t.actions = t'.actions
  clauses : t.clauses.Perm t'.clauses
  policies_eq : clausesOf .policy t.clauses = clausesOf .policy t'.clauses
  policyChains_eq : clausesOf .policyChain t.clauses = clausesOf .policyChain t'.clauses
  activeFilters_eq : t.activeFilters = t'.activeFilters

/-- Route filters without actions are skipped, and so are clauses of other kinds. -/
theorem readFilters_eq (cs : List FromClause) :
    readFilters cs = readFilters
      (((cs.filterMap FromClause.routeFilter?).filter fun f => !f.actions.isEmpty).map
        .routeFilter) := by
  induction cs with
  | nil => rfl
  | cons c cs ih =>
    cases c with
    | routeFilter f =>
      rw [List.filterMap_cons_some (f := FromClause.routeFilter?) rfl, readFilters]
      cases hf : f.actions with
      | nil =>
        rw [List.filter_cons_of_neg (by simp [hf]), read_of_no_actions hf,
          Evaluation.pure_thenIf, ih]
      | cons a as =>
        rw [List.filter_cons_of_pos (by simp [hf]), List.map_cons, readFilters, ← ih]
    | _ => exact ih

namespace Reordered

variable {t t' : Term}

theorem isEmpty_eq (h : t.Reordered t') : t.isEmpty = t'.isEmpty := by
  rw [isEmpty, isEmpty, h.clauses.isEmpty_eq, h.actions_eq]

section

variable (lists : PrefixLists) (ask : String → Evaluation Verdict)

theorem readFilters_eq (h : t.Reordered t') : readFilters t.clauses = readFilters t'.clauses := by
  rw [Term.readFilters_eq, Term.readFilters_eq t'.clauses]
  exact congrArg (fun fs => readFilters (fs.map .routeFilter)) h.activeFilters_eq

theorem attributesHold_eq (h : t.Reordered t') (r : Route) :
    t.attributesHold lists r = t'.attributesHold lists r := by
  rw [attributesHold, attributesHold, h.clauses.all_eq]
  simp only [h.clauses.any_eq]

theorem conjunctionHolds_eq (h : t.Reordered t') :
    t.conjunctionHolds ask = t'.conjunctionHolds ask := by
  simp only [conjunctionHolds, namesOf?_eq FromClause.conjunction?_eq, h.policies_eq]

theorem chainHolds_eq (h : t.Reordered t') : t.chainHolds ask = t'.chainHolds ask := by
  simp only [chainHolds, namesOf?_eq FromClause.chain?_eq, h.policyChains_eq]

/-- **The reading of a term does not depend on the order of its clauses**, as long as what has
effects keeps its own. -/
theorem read_eq (h : t.Reordered t') : t.read lists ask = t'.read lists ask := by
  simp only [read, isMatched, h.readFilters_eq, h.attributesHold_eq, h.conjunctionHolds_eq,
    h.chainHolds_eq, h.actions_eq]

end

/-! ## Reports -/

theorem kindNotices (lists : PrefixLists) (policy : String) (index : Nat) {cs cs' : List FromClause}
    (h : cs.Perm cs') (kind : ClauseKind) :
    (kind.notices lists policy index cs).Perm (kind.notices lists policy index cs') := by
  cases kind with
  | prefixes => exact ((h.filterMap _).filter _).flatMap_right _
  | unsupported => exact h.flatMap_right _
  | _ => exact .nil

/-- What is reported about a term is the same, up to the order of its clauses. -/
theorem notices (h : t.Reordered t') (lists : PrefixLists) (policy : String) (index : Nat) :
    (t.notices lists policy index).Perm (t'.notices lists policy index) := by
  have hclauses : (clauseNotices lists policy index t.clauses).Perm
      (clauseNotices lists policy index t'.clauses) :=
    .flatMap_left _ fun kind _ => kindNotices lists policy index (h.clauses.filter _) kind
  rw [Term.notices, Term.notices, h.activeFilters_eq, h.actions_eq]
  exact hclauses.append_left _

end Reordered

end Term

/-- What is reported about related terms, each under its number. -/
theorem perm_flatten_mapIdx {R : Term → Term → Prop} {ts ts' : List Term}
    (h : List.Forall₂ R ts ts') {report report' : Nat → Term → List Notice}
    (hreport : ∀ i t t', R t t' → (report i t).Perm (report' i t')) :
    (ts.mapIdx report).flatten.Perm (ts'.mapIdx report').flatten := by
  induction h generalizing report report' with
  | nil => exact .nil
  | cons ht _ ih =>
    rw [List.mapIdx_cons, List.mapIdx_cons, List.flatten_cons, List.flatten_cons]
    exact (hreport 0 _ _ ht).append (ih fun i t t' ht => hreport (i + 1) t t' ht)

namespace PolicyStatement

theorem diagnosticsOf_notices_reordered {s s' : PolicyStatement} (h : s.Termwise Term.Reordered s')
    (lists : PrefixLists) :
    (diagnosticsOf (s.notices lists)).Perm (diagnosticsOf (s'.notices lists)) := by
  have hterms : (s.allTerms.mapIdx fun i t => t.notices lists s.name i).flatten.Perm
      (s'.allTerms.mapIdx fun i t => t.notices lists s'.name i).flatten := by
    rw [h.name_eq]
    refine perm_flatten_mapIdx (h.allTerms fun _ _ ht => ht.isEmpty_eq) fun i t t' ht => ?_
    exact ht.notices lists s'.name i
  rw [notices, notices, diagnosticsOf_append, diagnosticsOf_append]
  exact (hterms.filterMap _).append_right _

/-- **The order of match clauses does not matter.**  The match clauses of the terms of a statement,
and of its default term, are listed in another order; those that ask policies keep their order kind
by kind, and so do the filters with actions.  Then the policies of both statements do the same in
every context, among whatever names they are linked: control leaves them the same way, with the same
route and overlay and with the same diagnostics.  A registry may hold the one policy in the place of
the other, simplified or not, and no evaluation of any policy of the frozen tables differs.
Compiling them gives the same diagnostics up to their order. -/
theorem compile_reordered {s s' : PolicyStatement} (h : s.Termwise Term.Reordered s')
    (lists : PrefixLists) :
    (∀ names ctx, Statement.runAll ctx ((s.compile lists).link names).statements =
      Statement.runAll ctx ((s'.compile lists).link names).statements) ∧
    (∀ r : Registry, s.compile lists ∈ r.policies → ∀ settings policy route d,
      (r.replace (s'.compile lists)).freeze.2.evaluate settings policy route d =
        r.freeze.2.evaluate settings policy route d ∧
      (r.replace (s'.compile lists)).simplifyAll.freeze.2.evaluate settings policy route d =
        r.simplifyAll.freeze.2.evaluate settings policy route d) ∧
    (diagnosticsOf (s.notices lists)).Perm (diagnosticsOf (s'.notices lists)) := by
  have hsynonymous : ∀ names, s.Synonymous lists names s' := fun names =>
    h.synonymous (fun _ _ ht => ht.isEmpty_eq) fun _ _ ht ctx => ht.read_eq lists _
  refine ⟨fun names => (hsynonymous names).performAll_eq, fun r hs settings policy route d => ?_,
    diagnosticsOf_notices_reordered h lists⟩
  have halike : r.Alike (r.replace (s'.compile lists)) :=
    Registry.alike_replace hs h.name_eq (hsynonymous r.names).performAll_eq
  have hequivalent := halike.equivalent.symm
  have hsimplified : (r.replace (s'.compile lists)).simplifyAll.table.Equivalent
      r.simplifyAll.table :=
    (Registry.simplifyAll_equivalent _).trans (hequivalent.trans r.simplifyAll_equivalent.symm)
  exact ⟨Table.evaluate_congr hequivalent settings policy route d,
    Table.evaluate_congr hsimplified settings policy route d⟩

/-- A term with clauses of six kinds, among them two that ask policies, a filter with actions and
one without, and two that are reported. -/
theorem compile_reordered_swapped :
    let ten : Prefix := ⟨⟨0x0a000000⟩, 8, by decide, by decide⟩
    let active : FromClause := .routeFilter { base := ten, actions := [.tag 3] }
    let passive : FromClause := .routeFilter { base := ten, matchType := .orLonger }
    let t : Term :=
      { clauses := [.policy ["b"], .tag 1, .prefixList "none", active, .policy ["c"], .tag 2,
          .policyChain ["b", "c"], passive, .unsupported "x"]
        actions := [.accept] }
    let t' : Term :=
      { clauses := [.unsupported "x", passive, .tag 2, .policyChain ["b", "c"], .tag 1, active,
          .policy ["b"], .prefixList "none", .policy ["c"]]
        actions := [.accept] }
    let s : PolicyStatement := { name := "a", terms := [t], defaultTerm := some t }
    let s' : PolicyStatement := { name := "a", terms := [t'], defaultTerm := some t' }
    let r := Registry.empty.insert (s.compile .empty)
    s.Termwise Term.Reordered s' ∧ s.compile .empty ∈ r.policies ∧
      (∀ settings policy route d,
        (r.replace (s'.compile .empty)).freeze.2.evaluate settings policy route d =
          r.freeze.2.evaluate settings policy route d) ∧
      (diagnosticsOf (s.notices .empty)).Perm (diagnosticsOf (s'.notices .empty)) := by
  intro ten active passive t t' s s' r
  have ht : t.Reordered t' :=
    { name_eq := rfl
      actions_eq := rfl
      clauses := by decide
      policies_eq := by decide
      policyChains_eq := by decide
      activeFilters_eq := by decide }
  have hs : s.Termwise Term.Reordered s' :=
    { name_eq := rfl, terms := .cons ht .nil, defaultTerm := .some ht }
  have hmem : s.compile .empty ∈ r.policies := List.mem_singleton.mpr rfl
  obtain ⟨-, hevaluate, hreport⟩ := compile_reordered hs .empty
  exact ⟨hs, hmem, fun settings policy route d => (hevaluate r hmem settings policy route d).1,
    hreport⟩

end PolicyStatement

end RoutePolicy
