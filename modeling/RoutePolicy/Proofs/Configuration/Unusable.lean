import RoutePolicy.Proofs.Configuration.Inventory
import RoutePolicy.Proofs.Configuration.Reworded

/-!
# Terms that cannot match

A match clause that cannot be used fails safe.  An unsupported construct, prefix lists that are not
defined and policies that are not defined keep their term from matching, whatever the other clauses
say: its actions are never taken, so they can be replaced by any others.  What a term does besides
its actions is still done: its route filters take their own, and the policies that it names are
asked.

* `Evaluation.NeverTrue` — evaluations with effects that never answer `true`;
* `Term.Unusable`, `Term.Unusable.isMatched` — the terms, which never match;
* `Term.Unusable.exists_guard` — the guard that their actions are compiled behind;
* `Configuration.evaluate_unusable` — other actions in the place of theirs.
-/

set_option autoImplicit false

namespace RoutePolicy

namespace Evaluation

/-- The evaluation never gives `true`: one may give `false` in the place of its answer. -/
def NeverTrue (x : Evaluation Bool) : Prop := (fun _ => false) <$> x = x

namespace NeverTrue

variable {α : Type} {x : Evaluation Bool}

theorem pure_false : NeverTrue (pure false) := map_pure _ _

theorem bind {y : Evaluation α} {f : α → Evaluation Bool} (hf : ∀ a, NeverTrue (f a)) :
    NeverTrue (y >>= f) := by
  rw [NeverTrue, map_bind]
  exact bind_congr hf

/-- Only the continuation for `false` counts. -/
theorem bind_eq (hx : NeverTrue x) (f : Bool → Evaluation α) :
    x >>= f = x >>= fun _ => f false := by
  rw [← hx, bind_map_left, bind_map_left]

theorem bind_of_false (hx : NeverTrue x) {f : Bool → Evaluation Bool} (hf : NeverTrue (f false)) :
    NeverTrue (x >>= f) := by
  rw [hx.bind_eq]
  exact bind fun _ => hf

theorem not_pure_true : ¬ NeverTrue (pure true) := by
  intro h
  rw [NeverTrue, map_pure] at h
  cases congrFun h { route := {}, defaultAction := .reject }

end NeverTrue

end Evaluation

open Evaluation (NeverTrue)

/-! ## Policies that are not defined -/

theorem FromClause.eq_of_conjunction? {c : FromClause} {names : List String}
    (h : c.conjunction? = some names) : c = .policy names := by
  cases c with
  | policy => rw [Option.some.inj h]
  | _ => cases h

theorem FromClause.eq_of_chain? {c : FromClause} {names : List String}
    (h : c.chain? = some names) : c = .policyChain names := by
  cases c with
  | policyChain => rw [Option.some.inj h]
  | _ => cases h

/-- The names of a clause that is picked are among those of all of them, which come from such
clauses. -/
theorem exists_namesOf? {pick : FromClause → Option (List String)} {clauses : List FromClause}
    {c : FromClause} {members : List String} (hc : c ∈ clauses) (hpick : pick c = some members) :
    ∃ names, namesOf? pick clauses = some names ∧ (∀ name ∈ members, name ∈ names) ∧
      ∀ name ∈ names, ∃ c ∈ clauses, ∃ members, pick c = some members ∧ name ∈ members := by
  have hmem : members ∈ clauses.filterMap pick := List.mem_filterMap.mpr ⟨c, hc, hpick⟩
  refine ⟨(clauses.filterMap pick).flatten, ?_, fun name hname =>
    List.mem_flatten.mpr ⟨members, hmem, hname⟩, fun name hname => ?_⟩
  · unfold namesOf?
    split
    · rename_i hnone
      rw [hnone] at hmem
      cases hmem
    · rfl
  · obtain ⟨group, hgroup, hname⟩ := List.mem_flatten.mp hname
    obtain ⟨c, hc, hpick⟩ := List.mem_filterMap.mp hgroup
    exact ⟨c, hc, group, hpick, hname⟩

section

variable {ask : String → Evaluation Verdict} {names : List String}

theorem neverTrue_allMatched {name : String} (hname : name ∈ names)
    (hask : ask name = pure .unmatched) : NeverTrue (allMatched ask names) := by
  induction names with
  | nil => cases hname
  | cons n ns ih =>
    rw [allMatched]
    rcases List.mem_cons.mp hname with rfl | hname
    · rw [hask, pure_bind]
      exact .pure_false
    · refine .bind fun v => ?_
      rcases v with (_ | _) | _
      · exact .pure_false
      · exact ih hname
      · exact .pure_false

theorem firstMatched_eq_pure (hask : ∀ name ∈ names, ask name = pure .unmatched) :
    firstMatched ask names = pure false := by
  induction names with
  | nil => rfl
  | cons n ns ih =>
    obtain ⟨hn, hns⟩ := List.forall_mem_cons.mp hask
    rw [firstMatched, hn, pure_bind]
    exact ih hns

end

theorem Context.askNamed_undefined (ctx : Context) {names : List String} {name : String}
    (h : name ∉ names) : ctx.askNamed names name = pure .unmatched :=
  ctx.ask_unlinked (placeOf_eq_none_iff.mpr h)

/-! ## Terms -/

namespace Term

/-- A term that cannot match, for the clauses of one kind can never hold among the prefix lists and
the names of the policies that are defined. -/
inductive Unusable (lists : PrefixLists) (names : List String) (t : Term) : Prop where
  | unsupported {construct : String} (mem : .unsupported construct ∈ t.clauses)
  | prefixes (occurs : ∃ c ∈ t.clauses, c.kind = .prefixes)
    (undefined : ∀ c ∈ t.clauses, c.kind = .prefixes →
      ∃ name, c = .prefixList name ∧ lists.find? name = none)
  | policy {members : List String} {name : String} (mem : .policy members ∈ t.clauses)
    (mem_members : name ∈ members) (undefined : name ∉ names)
  | policies (occurs : ∃ members, .policy members ∈ t.clauses)
    (undefined : ∀ members, .policy members ∈ t.clauses → ∀ name ∈ members, name ∉ names)
  | policyChains (occurs : ∃ members, .policyChain members ∈ t.clauses)
    (undefined : ∀ members, .policyChain members ∈ t.clauses → ∀ name ∈ members, name ∉ names)

variable {lists : PrefixLists} {names : List String} {t : Term} {ask : String → Evaluation Verdict}

/-- Clauses of one kind that hold of no route keep the term from matching. -/
theorem attributesHold_eq_false {c : FromClause} (hc : c ∈ t.clauses)
    (hpolicies : c.asksPolicies = false) (r : Route)
    (hnone : ∀ c' ∈ t.clauses, c'.kind = c.kind → c'.holds lists r = false) :
    t.attributesHold lists r = false := by
  rw [attributesHold, List.all_eq_false]
  refine ⟨c, hc, ?_⟩
  simp only [hpolicies, Bool.false_or, Bool.not_eq_true, List.any_eq_false, Bool.and_eq_true,
    beq_iff_eq, not_and]
  exact fun c' hc' hkind => by simpa using hnone c' hc' hkind

theorem isMatched_of_attributes (h : ∀ r, t.attributesHold lists r = false) :
    NeverTrue (t.isMatched lists ask) := by
  refine .bind fun env => .bind fun policies => .bind fun chain => ?_
  rw [h, Bool.false_and, Bool.false_and]
  exact .pure_false

theorem isMatched_of_conjunction (h : NeverTrue (t.conjunctionHolds ask)) :
    NeverTrue (t.isMatched lists ask) := by
  refine .bind fun env => h.bind_of_false (.bind fun chain => ?_)
  rw [Bool.and_false, Bool.false_and]
  exact .pure_false

theorem isMatched_of_chain (h : NeverTrue (t.chainHolds ask)) :
    NeverTrue (t.isMatched lists ask) := by
  refine .bind fun env => .bind fun policies => h.bind_of_false ?_
  rw [Bool.and_false]
  exact .pure_false

theorem conjunctionHolds_of_undefined_member {members : List String} {name : String}
    (hmem : .policy members ∈ t.clauses) (hname : name ∈ members)
    (hask : ask name = pure .unmatched) : NeverTrue (t.conjunctionHolds ask) := by
  have hpick : (FromClause.policy members).conjunction? = some members := rfl
  obtain ⟨asked, hasked, hmembers, -⟩ := exists_namesOf? hmem hpick
  rw [conjunctionHolds, hasked]
  cases asked with
  | nil => exact .pure_false
  | cons n ns => exact neverTrue_allMatched (hmembers name hname) hask

theorem conjunctionHolds_of_undefined (hoccurs : ∃ members, .policy members ∈ t.clauses)
    (hask : ∀ members, .policy members ∈ t.clauses →
      ∀ name ∈ members, ask name = pure .unmatched) : NeverTrue (t.conjunctionHolds ask) := by
  obtain ⟨members, hmem⟩ := hoccurs
  have hpick : (FromClause.policy members).conjunction? = some members := rfl
  obtain ⟨asked, hasked, -, hall⟩ := exists_namesOf? hmem hpick
  rw [conjunctionHolds, hasked]
  cases asked with
  | nil => exact .pure_false
  | cons n ns =>
    -- the first policy that is asked has no verdict already
    obtain ⟨c, hc, group, hpick, hn⟩ := hall n List.mem_cons_self
    obtain rfl := FromClause.eq_of_conjunction? hpick
    exact neverTrue_allMatched List.mem_cons_self (hask group hc n hn)

theorem chainHolds_of_undefined (hoccurs : ∃ members, .policyChain members ∈ t.clauses)
    (hask : ∀ members, .policyChain members ∈ t.clauses →
      ∀ name ∈ members, ask name = pure .unmatched) : NeverTrue (t.chainHolds ask) := by
  obtain ⟨members, hmem⟩ := hoccurs
  have hpick : (FromClause.policyChain members).chain? = some members := rfl
  obtain ⟨asked, hasked, -, hall⟩ := exists_namesOf? hmem hpick
  rw [chainHolds, hasked]
  simp only
  rw [firstMatched_eq_pure]
  · exact .pure_false
  · intro name hname
    obtain ⟨c, hc, group, hpick, hn⟩ := hall name hname
    obtain rfl := FromClause.eq_of_chain? hpick
    exact hask group hc name hn

/-- **A term that cannot be used never matches**, where policies that are not defined have no
verdict. -/
theorem Unusable.isMatched (h : t.Unusable lists names)
    (hask : ∀ name, name ∉ names → ask name = pure .unmatched) :
    NeverTrue (t.isMatched lists ask) := by
  cases h with
  | unsupported hmem =>
    -- clauses of this kind are all unsupported
    refine isMatched_of_attributes fun r => attributesHold_eq_false hmem rfl r ?_
    intro c _ hkind
    cases c <;> first | rfl | cases hkind
  | prefixes hoccurs hundefined =>
    obtain ⟨c, hc, hkind⟩ := hoccurs
    have hpolicies : c.asksPolicies = false := by
      cases c <;> first | rfl | cases hkind
    refine isMatched_of_attributes fun r => attributesHold_eq_false hc hpolicies r ?_
    intro c' hc' hkind'
    obtain ⟨name, rfl, hnone⟩ := hundefined c' hc' (hkind'.trans hkind)
    rw [FromClause.holds, hnone]
    rfl
  | policy hmem hname hundefined =>
    exact isMatched_of_conjunction
      (conjunctionHolds_of_undefined_member hmem hname (hask _ hundefined))
  | policies hoccurs hundefined =>
    exact isMatched_of_conjunction (conjunctionHolds_of_undefined hoccurs
      fun members hmem name hname => hask name (hundefined members hmem name hname))
  | policyChains hoccurs hundefined =>
    exact isMatched_of_chain (chainHolds_of_undefined hoccurs
      fun members hmem name hname => hask name (hundefined members hmem name hname))

theorem Unusable.exists_clause (h : t.Unusable lists names) : ∃ c, c ∈ t.clauses := by
  cases h with
  | unsupported hmem => exact ⟨_, hmem⟩
  | prefixes hoccurs =>
    obtain ⟨c, hc, -⟩ := hoccurs
    exact ⟨c, hc⟩
  | policy hmem => exact ⟨_, hmem⟩
  | policies hoccurs | policyChains hoccurs =>
    obtain ⟨members, hmem⟩ := hoccurs
    exact ⟨_, hmem⟩

/-- The actions of a term have no part in whether it can be used. -/
theorem Unusable.withActions (h : t.Unusable lists names) (actions : List ThenClause) :
    Unusable lists names { t with actions } := by
  cases h with
  | unsupported hmem => exact .unsupported hmem
  | prefixes hoccurs hundefined => exact .prefixes hoccurs hundefined
  | policy hmem hname hundefined => exact .policy hmem hname hundefined
  | policies hoccurs hundefined => exact .policies hoccurs hundefined
  | policyChains hoccurs hundefined => exact .policyChains hoccurs hundefined

/-- The actions of a term that cannot be used are not in its reading. -/
theorem Unusable.read_eq (h : t.Unusable lists names)
    (hask : ∀ name, name ∉ names → ask name = pure .unmatched) :
    t.read lists ask = (readFilters t.clauses).thenIf .undecided
      (t.isMatched lists ask >>= fun _ => pure .undecided) := by
  have hnever := h.isMatched hask
  rw [read, hnever.bind_eq]
  rfl

/-- The program of a term that cannot be used has its actions behind a guard that is never true. -/
theorem Unusable.exists_guard (h : t.Unusable lists names) (index : Nat) :
    ∃ guard, guardOf? lists index t.clauses = some guard ∧
      ∀ ctx, NeverTrue (guard.holds names ctx) := by
  have hnever : ∀ ctx : Context, NeverTrue (Condition.holdsEach names ctx true
      (operandsOf lists index t.clauses)) := by
    intro ctx
    rw [holds_operandsOf]
    exact h.isMatched fun name hname => ctx.askNamed_undefined hname
  rw [guardOf?]
  split
  · -- without a guard the actions would always be taken
    rename_i hnone
    rw [hnone] at hnever
    exact absurd (hnever ⟨"", false, fun _ => pure .absent⟩) NeverTrue.not_pure_true
  · rename_i c hsingle
    rw [hsingle] at hnever
    refine ⟨c, rfl, fun ctx => ?_⟩
    rw [← Condition.holdsEach_singleton names ctx true c]
    exact hnever ctx
  · refine ⟨_, rfl, fun ctx => ?_⟩
    rw [Condition.holds_all]
    exact hnever ctx

/-- The same term, or one with other actions when it cannot be used. -/
inductive Revised (lists : PrefixLists) (names : List String) (t : Term) : Term → Prop where
  | refl : Revised lists names t t
  | actions (unusable : t.Unusable lists names) (actions : List ThenClause) :
    Revised lists names t { t with actions }

namespace Revised

variable {t' : Term}

theorem isEmpty_eq (h : t.Revised lists names t') : t.isEmpty = t'.isEmpty := by
  cases h with
  | refl => rfl
  | actions hunusable =>
    have hclauses : t.clauses.isEmpty = false := by
      rw [List.isEmpty_eq_false_iff_exists_mem]
      exact hunusable.exists_clause
    rw [isEmpty, isEmpty, hclauses]
    rfl

theorem read_eq (h : t.Revised lists names t')
    (hask : ∀ name, name ∉ names → ask name = pure .unmatched) :
    t.read lists ask = t'.read lists ask := by
  cases h with
  | refl => rfl
  | actions hunusable actions =>
    rw [hunusable.read_eq hask, (hunusable.withActions actions).read_eq hask]
    rfl

end Revised

end Term

/-! ## Configurations -/

namespace Configuration

/-- **Match clauses that cannot be used fail safe.**  In a configuration that can be converted, the
terms that cannot be used, among the prefix lists of the configuration and the policies of its
table, may be given any other actions, in any number of statements.  The configuration can still be
converted, simplified or not, and no evaluation of any policy can tell the tables apart: decision,
overlay and what is reported stay as they are.  For the actions of such a term are compiled behind a
guard that is never true once it is linked, whatever policies it asks and wherever it is tested. -/
theorem evaluate_unusable {c : Configuration} {notices : List Notice} {t : Table}
    (hconvert : c.convert = (notices, .ok t)) :
    (∀ (statements : List PolicyStatement) (simplify : Bool),
      List.Forall₂ (PolicyStatement.Termwise (Term.Revised c.prefixLists t.names))
        c.policyStatements statements →
      ∃ notices' t',
        { c with policyStatements := statements, simplify }.convert = (notices', .ok t') ∧
        t'.names = t.names ∧
        ∀ s policy route d, t'.evaluate s policy route d = t.evaluate s policy route d) ∧
    ∀ term : Term, term.Unusable c.prefixLists t.names → ∀ index,
      ∃ guard, guardOf? c.prefixLists index term.clauses = some guard ∧
        ∀ ctx, NeverTrue (guard.holds t.names ctx) := by
  obtain ⟨r, hconverted⟩ := exists_converted hconvert
  refine ⟨fun statements simplify hrevised => ?_, fun term hterm index => hterm.exists_guard index⟩
  have hreworded : c.Reworded r.names { c with policyStatements := statements, simplify } :=
    { prefixLists_eq := rfl
      policyStatements := by
        rw [← hconverted.names_eq]
        refine hrevised.imp fun s s' hs => hs.synonymous (fun _ _ h => h.isEmpty_eq) ?_
        exact fun _ _ h ctx => h.read_eq fun name hname => ctx.askNamed_undefined hname
      peers_eq := rfl
      aggregates_eq := rfl
      ribGroups_eq := rfl
      instanceImports_eq := rfl }
  obtain ⟨t', ht'⟩ := hreworded.exists_convert ⟨t, congrArg Prod.snd hconvert⟩
  have hconvert' : Configuration.convert { c with policyStatements := statements, simplify } =
      (Prod.fst _, .ok t') := congrArg (Prod.mk _) ht'
  obtain ⟨r', hconverted'⟩ := exists_converted hconvert'
  have hequivalent := hreworded.equivalent hconverted hconverted'
  exact ⟨_, t', hconvert', hequivalent.names_eq.symm, fun s policy route d =>
    Table.evaluate_congr hequivalent.symm s policy route d⟩

/-- A statement whose first term asks for an unsupported construct, whose second one asks for a
policy that is not defined besides one that is, and whose default term names a prefix list that is
not defined: all their actions are replaced, and those of the third term stay. -/
theorem evaluate_unusable_replaced :
    let unsupported : Term := { clauses := [.tag 1, .unsupported "x"], actions := [.accept] }
    let asking : Term := { clauses := [.policy ["b", "gone"]], actions := [.metric 5] }
    let listed : Term := { clauses := [.prefixList "none"], actions := [.reject] }
    let last : Term := { actions := [.tag 2] }
    let a : PolicyStatement :=
      { name := "a", terms := [unsupported, asking, last], defaultTerm := some listed }
    let a' : PolicyStatement :=
      { name := "a"
        terms := [{ unsupported with actions := [.reject] }, { asking with actions := [] }, last]
        defaultTerm := some { listed with actions := [.accept, .metricAdd 1] } }
    let b : PolicyStatement := { name := "b", terms := [{ actions := [.metric 1] }] }
    let c : Configuration := { policyStatements := [a, b], simplify := true }
    ∃ notices t notices' t', c.convert = (notices, .ok t) ∧ "gone" ∉ t.names ∧
      { c with policyStatements := [a', b], simplify := false }.convert = (notices', .ok t') ∧
      ∀ s policy route d, t'.evaluate s policy route d = t.evaluate s policy route d := by
  intro unsupported asking listed last a a' b c
  have hnames : c.convert.2.map Table.names =
      .ok ["a", "b", "~DEFAULT_ACCEPT~", "~DEFAULT_REJECT~"] := by decide +kernel
  obtain ⟨notices, t, hconvert, ht⟩ := exists_convert_of_map hnames
  have hgone : "gone" ∉ t.names := by
    rw [ht]
    decide
  have hunsupported : unsupported.Unusable c.prefixLists t.names :=
    .unsupported (List.mem_cons_of_mem _ List.mem_cons_self)
  have hasking : asking.Unusable c.prefixLists t.names :=
    .policy List.mem_cons_self (List.mem_cons_of_mem _ List.mem_cons_self) hgone
  have hlisted : listed.Unusable c.prefixLists t.names := by
    refine .prefixes ⟨_, List.mem_cons_self, rfl⟩ fun clause hclause _ => ?_
    exact ⟨"none", List.mem_singleton.mp hclause, rfl⟩
  have hb : b.Termwise (Term.Revised c.prefixLists t.names) b :=
    ⟨rfl, .cons .refl .nil, .none⟩
  have ha : a.Termwise (Term.Revised c.prefixLists t.names) a' :=
    { name_eq := rfl
      terms := .cons (.actions hunsupported _) (.cons (.actions hasking _) (.cons .refl .nil))
      defaultTerm := .some (.actions hlisted _) }
  obtain ⟨notices', t', hconvert', -, hevaluate⟩ :=
    (evaluate_unusable hconvert).1 [a', b] false (.cons ha (.cons hb .nil))
  exact ⟨notices, t, notices', t', hconvert, hgone, hconvert', hevaluate⟩

end Configuration

end RoutePolicy
