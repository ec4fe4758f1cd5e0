import RoutePolicy.Proofs.Configuration.Reading
import RoutePolicy.Proofs.Prefix.Selection
import RoutePolicy.Proofs.Registry.Linked

/-!
# Guards of compiled terms

The guard of a compiled term is true exactly where the term matches, and asks the same policies in
the same order.

* `ClauseKind.holds_condition` — the condition of a kind that asks for an attribute is true where
  some clause of that kind holds;
* `holds_conjunction`, `holds_chain` — the two kinds that ask policies;
* `holds_operandsOf` — the guard as a whole.
-/

set_option autoImplicit false

namespace RoutePolicy

variable (names : List String) (ctx : Context)

/-! ## Match clauses -/

namespace Condition

theorem holdsEach_tests (ps : List Predicate) :
    holdsEach names ctx false (ps.map .test) =
      (fun env : Environment => ps.any (·.holds env.route)) <$> Evaluation.get := by
  induction ps with
  | nil => rfl
  | cons p ps ih =>
    rw [List.map_cons, holdsEach, ih, holds_test]
    rfl

theorem holds_anyOf (cs : List Condition) :
    (anyOf cs).holds names ctx = holdsEach names ctx false cs := by
  unfold anyOf
  split
  · rw [holdsEach_singleton]
  · rw [holds_any]

theorem holds_anyOf_tests (ps : List Predicate) :
    (anyOf (ps.map .test)).holds names ctx =
      (fun env : Environment => ps.any (·.holds env.route)) <$> Evaluation.get := by
  rw [holds_anyOf, holdsEach_tests]

end Condition

namespace FromClause

variable (lists : PrefixLists)

theorem holds_of_predicate? {c : FromClause} (h₁ : c.kind ≠ .prefixes) (h₂ : c.kind ≠ .policy)
    (h₃ : c.kind ≠ .policyChain) :
    ∃ p, c.predicate? = some p ∧ ∀ r, p.holds r = c.holds lists r := by
  cases c <;> first
    | exact ⟨_, rfl, fun _ => rfl⟩
    | exact absurd rfl h₁
    | exact absurd rfl h₂
    | exact absurd rfl h₃

theorem any_predicates {kind : ClauseKind} (h₁ : kind ≠ .prefixes) (h₂ : kind ≠ .policy)
    (h₃ : kind ≠ .policyChain) {cs : List FromClause} (hcs : ∀ c ∈ cs, c.kind = kind) (r : Route) :
    (cs.filterMap predicate?).any (·.holds r) = cs.any (·.holds lists r) := by
  induction cs with
  | nil => rfl
  | cons c cs ih =>
    have hc := hcs c List.mem_cons_self
    obtain ⟨p, hp, hholds⟩ :=
      holds_of_predicate? lists (c := c) (hc ▸ h₁) (hc ▸ h₂) (hc ▸ h₃)
    rw [List.filterMap_cons_some hp, List.any_cons, List.any_cons, hholds,
      ih fun c' hc' => hcs c' (List.mem_cons_of_mem _ hc')]

theorem contains_setOf (name : String) (q : Prefix) :
    (lists.setOf name).contains q = ((lists.find? name).getD []).contains q := by
  unfold PrefixLists.setOf
  cases lists.find? name with
  | none => rfl
  | some ps => exact PrefixSet.contains_ofPrefixes ps q

/-- The sets of the prefix clauses together hold what some clause selects. -/
theorem any_prefixSetsOf (cs : List FromClause) (q : Prefix) :
    (prefixSetsOf lists cs).any (·.contains q) =
      ((cs.filterMap prefixList?).any (fun name => (lists.setOf name).contains q) ||
        (cs.filterMap routeFilter?).any (fun f => f.range.selects q)) := by
  have hfilters : (((cs.filterMap routeFilter?).map RouteFilter.range).foldl
      PrefixSet.add .empty).contains q =
        (cs.filterMap routeFilter?).any (fun f => f.range.selects q) := by
    rw [PrefixSet.contains_addAll, List.any_map]
    rfl
  rw [← hfilters]
  unfold prefixSetsOf
  generalize ((cs.filterMap routeFilter?).map RouteFilter.range).foldl PrefixSet.add .empty = s
  simp only
  split
  · rename_i hs
    have hnone : s.contains q = false := by
      rw [PrefixSet.contains, List.isEmpty_iff.mp hs]
      rfl
    rw [hnone, Bool.or_false, List.any_map]
    rfl
  · rw [List.any_append, List.any_map]
    simp [Function.comp_def]

theorem any_prefixes {cs : List FromClause} (hcs : ∀ c ∈ cs, c.kind = .prefixes) (r : Route) :
    (prefixSetsOf lists cs).any (·.contains r.network) = cs.any (·.holds lists r) := by
  rw [any_prefixSetsOf]
  induction cs with
  | nil => rfl
  | cons c cs ih =>
    rw [List.any_cons, ← ih fun c' hc' => hcs c' (List.mem_cons_of_mem _ hc')]
    have hc := hcs c List.mem_cons_self
    cases c with
    | prefixList name =>
      rw [List.filterMap_cons_some (f := prefixList?) rfl,
        List.filterMap_cons_none (f := routeFilter?) rfl, List.any_cons, contains_setOf,
        Bool.or_assoc]
      rfl
    | routeFilter f =>
      rw [List.filterMap_cons_none (f := prefixList?) rfl,
        List.filterMap_cons_some (f := routeFilter?) rfl, List.any_cons, Bool.or_left_comm]
      rfl
    | _ => cases hc

end FromClause

/-- **The condition of the clauses of one kind is true where some clause holds**, when the kind
asks for an attribute. -/
theorem ClauseKind.holds_condition (lists : PrefixLists) (term : Nat) {kind : ClauseKind}
    (h₂ : kind ≠ .policy) (h₃ : kind ≠ .policyChain) {cs : List FromClause}
    (hcs : ∀ c ∈ cs, c.kind = kind) :
    (kind.condition lists term cs).holds names ctx =
      (fun env : Environment => cs.any (·.holds lists env.route)) <$> Evaluation.get := by
  by_cases h₁ : kind = .prefixes
  · subst h₁
    have hmap : (prefixSetsOf lists cs).map (fun s => Condition.test (.prefixIn s)) =
        ((prefixSetsOf lists cs).map Predicate.prefixIn).map .test := by simp
    rw [condition, hmap, Condition.holds_anyOf_tests]
    congr 1
    funext env
    rw [List.any_map, ← FromClause.any_prefixes lists hcs env.route]
    rfl
  · have hcond : kind.condition lists term cs =
        anyOf ((cs.filterMap FromClause.predicate?).map .test) := by
      cases kind <;> first | rfl | exact absurd rfl h₁ | exact absurd rfl h₂ | exact absurd rfl h₃
    rw [hcond, Condition.holds_anyOf_tests]
    simp only [FromClause.any_predicates lists h₁ h₂ h₃ hcs]

/-! ## Guards -/

/-- The kinds that ask for attributes of the route. -/
def ClauseKind.attributes : List ClauseKind :=
  ClauseKind.all.filter fun kind => kind != .policy && kind != .policyChain

theorem ClauseKind.mem_attributes {kind : ClauseKind} :
    kind ∈ attributes ↔ kind ≠ .policy ∧ kind ≠ .policyChain := by
  cases kind <;> decide

theorem FromClause.asksPolicies_iff (c : FromClause) :
    c.asksPolicies = true ↔ c.kind ∉ ClauseKind.attributes := by
  rw [ClauseKind.mem_attributes]
  cases c <;> simp [asksPolicies, conjunction?, chain?, kind]

/-- The condition of the clauses of a kind, when there are any. -/
def operand? (lists : PrefixLists) (term : Nat) (clauses : List FromClause) (kind : ClauseKind) :
    Option Condition :=
  match clausesOf kind clauses with
  | [] => none
  | c :: cs => some (kind.condition lists term (c :: cs))

theorem operandsOf_eq (lists : PrefixLists) (term : Nat) (clauses : List FromClause) :
    operandsOf lists term clauses =
      ClauseKind.attributes.filterMap (operand? lists term clauses) ++
        ((operand? lists term clauses .policy).toList ++
          (operand? lists term clauses .policyChain).toList) := by
  have hall : ClauseKind.all = ClauseKind.attributes ++ [.policy, .policyChain] := by decide
  have hops : operandsOf lists term clauses =
      ClauseKind.all.filterMap (operand? lists term clauses) := rfl
  rw [hops, hall, List.filterMap_append]
  congr 1
  cases h : operand? lists term clauses .policy <;>
    cases h' : operand? lists term clauses .policyChain <;> simp [h, h']

theorem kind_of_mem_clausesOf {kind : ClauseKind} {clauses : List FromClause} {c : FromClause}
    (h : c ∈ clausesOf kind clauses) : c.kind = kind := by
  simpa using (List.mem_filter.mp h).2

theorem holdsEach_attributes (lists : PrefixLists) (term : Nat) (clauses : List FromClause)
    {kinds : List ClauseKind} (hk : ∀ kind ∈ kinds, kind ∈ ClauseKind.attributes) :
    Condition.holdsEach names ctx true (kinds.filterMap (operand? lists term clauses)) =
      (fun env : Environment => kinds.all fun kind => (clausesOf kind clauses).isEmpty ||
        (clausesOf kind clauses).any (·.holds lists env.route)) <$> Evaluation.get := by
  induction kinds with
  | nil => rfl
  | cons kind kinds ih =>
    have ih := ih fun k h => hk k (List.mem_cons_of_mem _ h)
    cases hc : clausesOf kind clauses with
    | nil =>
      have hop : operand? lists term clauses kind = none := by simp [operand?, hc]
      rw [List.filterMap_cons_none hop, ih]
      simp [hc]
    | cons c cs =>
      have hop : operand? lists term clauses kind = some (kind.condition lists term (c :: cs)) := by
        simp [operand?, hc]
      obtain ⟨h₂, h₃⟩ := ClauseKind.mem_attributes.mp (hk kind List.mem_cons_self)
      have hkind : ∀ d ∈ c :: cs, d.kind = kind := fun d hd =>
        kind_of_mem_clausesOf (hc ▸ hd)
      rw [List.filterMap_cons_some hop, Condition.holdsEach, ih,
        ClauseKind.holds_condition names ctx lists term h₂ h₃ hkind]
      simp only [List.all_cons, hc, List.isEmpty_cons, Bool.false_or]
      rfl

theorem attributesHold_eq (lists : PrefixLists) (t : Term) (r : Route) :
    (ClauseKind.attributes.all fun kind => (clausesOf kind t.clauses).isEmpty ||
      (clausesOf kind t.clauses).any (·.holds lists r)) = t.attributesHold lists r := by
  rw [Bool.eq_iff_iff, Term.attributesHold, List.all_eq_true, List.all_eq_true]
  constructor
  · intro h c hc
    by_cases ha : c.asksPolicies = true
    · simp [ha]
    · have hk : c.kind ∈ ClauseKind.attributes := by
        rw [FromClause.asksPolicies_iff, Classical.not_not] at ha
        exact ha
      have hmem : c ∈ clausesOf c.kind t.clauses := List.mem_filter.mpr ⟨hc, by simp⟩
      have hsome := h c.kind hk
      rw [Bool.or_eq_true, List.isEmpty_iff] at hsome
      rcases hsome with hnil | hsome
      · rw [hnil] at hmem
        cases hmem
      · obtain ⟨c', hc', hholds⟩ := List.any_eq_true.mp hsome
        obtain ⟨hc', hkind⟩ := List.mem_filter.mp hc'
        rw [Bool.or_eq_true]
        exact .inr (List.any_eq_true.mpr ⟨c', hc', by rw [hkind, hholds]; rfl⟩)
  · intro h kind hk
    cases hcs : clausesOf kind t.clauses with
    | nil => simp
    | cons c cs =>
      have hmem : c ∈ clausesOf kind t.clauses := hcs ▸ List.mem_cons_self
      obtain ⟨hc, -⟩ := List.mem_filter.mp hmem
      have hkind := kind_of_mem_clausesOf hmem
      have hsome := h c hc
      rw [Bool.or_eq_true, FromClause.asksPolicies_iff, hkind] at hsome
      rcases hsome with habsent | hsome
      · exact absurd hk habsent
      · obtain ⟨c', hc', hholds⟩ := List.any_eq_true.mp hsome
        rw [Bool.and_eq_true] at hholds
        have hmem' : c' ∈ clausesOf kind t.clauses := List.mem_filter.mpr ⟨hc', hholds.1⟩
        rw [hcs] at hmem'
        rw [Bool.or_eq_true]
        exact .inr (List.any_eq_true.mpr ⟨c', hmem', hholds.2⟩)

/-! ## Subroutines -/

theorem askAll_subroutines (term : Nat) (ns : List String) :
    ctx.askAll ((ns.map fun name => (Reference.named name).atTerm term).map
        (·.linkOrKeep names)) = allMatched (ctx.askNamed names) ns := by
  induction ns with
  | nil => rfl
  | cons name ns ih =>
    rw [List.map_cons, List.map_cons, Context.askAll, ih, ctx.ask_linkOrKeep names rfl, allMatched]
    refine bind_congr fun v => ?_
    cases v with
    | unmatched => rfl
    | matched b => cases b <;> rfl

/-- A chain of references that are not linked yet asks the policies of their names. -/
theorem askFirst_names {rs : List Reference} (h : ∀ r ∈ rs, r.link = none) :
    Verdict.isTrue <$> ctx.askFirst (rs.filterMap (·.link? names)) =
      firstMatched (ctx.askNamed names) (rs.map (·.name)) := by
  rw [ctx.askFirst_link? names h]
  induction rs with
  | nil => rfl
  | cons r rs ih =>
    obtain ⟨hr, hrs⟩ := List.forall_mem_cons.mp h
    rw [List.map_cons, List.map_cons, Context.askFirst, ctx.ask_linkOrKeep names hr, firstMatched,
      map_bind, ← ih hrs]
    refine bind_congr fun v => ?_
    cases v with
    | unmatched => rfl
    | matched b => rfl

theorem askFirst_subroutines (term : Nat) (ns : List String) :
    Verdict.isTrue <$> ctx.askFirst ((ns.map fun name =>
        (Reference.named name).atTerm term).filterMap (·.link? names)) =
      firstMatched (ctx.askNamed names) ns := by
  have hunlinked : ∀ r ∈ ns.map fun name => (Reference.named name).atTerm term, r.link = none := by
    intro r hr
    obtain ⟨name, -, rfl⟩ := List.mem_map.mp hr
    rfl
  have hnames : (ns.map fun name => (Reference.named name).atTerm term).map (·.name) = ns := by
    rw [List.map_map]
    exact List.map_id ns
  rw [askFirst_names names ctx hunlinked, hnames]

theorem filterMap_pick {pick : FromClause → Option (List String)} {kind : ClauseKind}
    (hpick : ∀ c : FromClause, pick c = if c.kind = kind then some c.policies else none)
    (clauses : List FromClause) :
    clauses.filterMap pick = (clausesOf kind clauses).map FromClause.policies := by
  induction clauses with
  | nil => rfl
  | cons c cs ih =>
    by_cases hc : c.kind = kind
    · rw [List.filterMap_cons_some (by rw [hpick, if_pos hc]), ih, clausesOf, clausesOf,
        List.filter_cons_of_pos (by simp [hc]), List.map_cons]
    · rw [List.filterMap_cons_none (by rw [hpick, if_neg hc]), ih, clausesOf, clausesOf,
        List.filter_cons_of_neg (by simp [hc])]

/-- The names that the clauses of a kind give are those of the references compiled from them. -/
theorem namesOf?_eq {pick : FromClause → Option (List String)} {kind : ClauseKind}
    (hpick : ∀ c : FromClause, pick c = if c.kind = kind then some c.policies else none)
    (clauses : List FromClause) :
    namesOf? pick clauses = match clausesOf kind clauses with
      | [] => none
      | cs => some (cs.flatMap FromClause.policies) := by
  rw [namesOf?, filterMap_pick hpick]
  cases clausesOf kind clauses <;> rfl

theorem FromClause.conjunction?_eq (c : FromClause) :
    c.conjunction? = if c.kind = .policy then some c.policies else none := by
  cases c <;> rfl

theorem FromClause.chain?_eq (c : FromClause) :
    c.chain? = if c.kind = .policyChain then some c.policies else none := by
  cases c <;> rfl

theorem holds_conjunction (lists : PrefixLists) (term : Nat) (t : Term) :
    Condition.holdsEach names ctx true (operand? lists term t.clauses .policy).toList =
      t.conjunctionHolds (ctx.askNamed names) := by
  rw [Term.conjunctionHolds, namesOf?_eq FromClause.conjunction?_eq, operand?]
  cases clausesOf .policy t.clauses with
  | nil => rfl
  | cons c cs =>
    simp only [Option.toList_some, Condition.holdsEach_singleton, ClauseKind.condition,
      Condition.holds_allMatch, subroutinesOf, askAll_subroutines]
    cases (c :: cs).flatMap FromClause.policies <;> rfl

theorem holds_chain (lists : PrefixLists) (term : Nat) (t : Term) :
    Condition.holdsEach names ctx true (operand? lists term t.clauses .policyChain).toList =
      t.chainHolds (ctx.askNamed names) := by
  rw [Term.chainHolds, namesOf?_eq FromClause.chain?_eq, operand?]
  cases clausesOf .policyChain t.clauses with
  | nil => rfl
  | cons c cs =>
    simp only [Option.toList_some, Condition.holdsEach_singleton, ClauseKind.condition,
      Condition.holds_firstMatch, subroutinesOf, askFirst_subroutines]

/-- The operands of a guard are all true exactly where the term matches. -/
theorem holds_operandsOf (lists : PrefixLists) (index : Nat) (t : Term) :
    Condition.holdsEach names ctx true (operandsOf lists index t.clauses) =
      t.isMatched lists (ctx.askNamed names) := by
  rw [operandsOf_eq, Condition.holdsEach_append, Condition.holdsEach_append, holds_conjunction,
    holds_chain, holdsEach_attributes names ctx lists index t.clauses fun _ h => h]
  simp only [attributesHold_eq, map_eq_pure_bind, bind_assoc, pure_bind, Condition.joined, if_true,
    Term.isMatched, Bool.and_assoc]

end RoutePolicy
