import Mathlib.Data.List.Forall2
import RoutePolicy.Proofs.Configuration.Collisions
import RoutePolicy.Proofs.Configuration.CompileSound
import RoutePolicy.Proofs.Configuration.Order
import RoutePolicy.Proofs.Registry.Alike

/-!
# Policy statements in other words

The terms of a policy statement may be written in another way that reads the same.  Nothing else in
a configuration looks into the statements, so it can still be converted, and its table does the
same.

* `PolicyStatement.Termwise` — statements that are related term by term;
* `PolicyStatement.Synonymous`, `PolicyStatement.Termwise.synonymous` — statements whose programs do
  the same;
* `Configuration.Reworded` — configurations with synonymous statements: `exists_convert`,
  `equivalent`.
-/

set_option autoImplicit false

namespace RoutePolicy

/-- A member of a list is related to one of the other list. -/
theorem exists_related_of_mem {α β : Type} {R : α → β → Prop} {as : List α} {bs : List β}
    (h : List.Forall₂ R as bs) {a : α} (ha : a ∈ as) : ∃ b ∈ bs, R a b := by
  induction h with
  | nil => cases ha
  | cons hab _ ih =>
    rcases List.mem_cons.mp ha with rfl | ha
    · exact ⟨_, List.mem_cons_self, hab⟩
    · obtain ⟨b, hb, hr⟩ := ih ha
      exact ⟨b, List.mem_cons_of_mem _ hb, hr⟩

theorem readAll_congr (lists : PrefixLists) (ask : String → Evaluation Verdict)
    {ts ts' : List Term}
    (h : List.Forall₂ (fun t t' => t.read lists ask = t'.read lists ask) ts ts') :
    Term.readAll lists ask ts = Term.readAll lists ask ts' := by
  induction h with
  | nil => rfl
  | cons ht _ ih => rw [Term.readAll, Term.readAll, ht, ih]

namespace PolicyStatement

/-- The same statement with other terms, each related to the one in its place. -/
structure Termwise (R : Term → Term → Prop) (s s' : PolicyStatement) : Prop where
  name_eq : s.name = s'.name
  terms : List.Forall₂ R s.terms s'.terms
  defaultTerm : Option.Rel R s.defaultTerm s'.defaultTerm

/-- The statements have the same name and do the same once they are linked among `names`. -/
structure Synonymous (lists : PrefixLists) (names : List String) (s s' : PolicyStatement) :
    Prop where
  name_eq : s.name = s'.name
  performAll_eq : ∀ ctx, Statement.performAll names ctx (s.program lists) =
    Statement.performAll names ctx (s'.program lists)

namespace Termwise

variable {R : Term → Term → Prop} {s s' : PolicyStatement}

/-- Terms that are compiled stand at the same places when empty terms are related to empty ones
only. -/
theorem allTerms (h : s.Termwise R s') (hempty : ∀ t t', R t t' → t.isEmpty = t'.isEmpty) :
    List.Forall₂ R s.allTerms s'.allTerms := by
  refine List.rel_append h.terms ?_
  have hdefault := h.defaultTerm
  generalize s.defaultTerm = d at hdefault ⊢
  generalize s'.defaultTerm = d' at hdefault ⊢
  cases hdefault with
  | none => exact .nil
  | @some t t' ht =>
    have he := hempty t t' ht
    cases ht' : t'.isEmpty with
    | true => simp [he, ht']
    | false => simpa [he, ht'] using ht

theorem read_eq (h : s.Termwise R s') (hempty : ∀ t t', R t t' → t.isEmpty = t'.isEmpty)
    {lists : PrefixLists} {ask : String → Evaluation Verdict}
    (hread : ∀ t t', R t t' → t.read lists ask = t'.read lists ask) :
    s.read lists ask = s'.read lists ask := by
  rw [← readAll_allTerms, ← readAll_allTerms]
  exact readAll_congr lists ask ((h.allTerms hempty).imp hread)

theorem synonymous (h : s.Termwise R s') (hempty : ∀ t t', R t t' → t.isEmpty = t'.isEmpty)
    {lists : PrefixLists} {names : List String}
    (hread : ∀ t t', R t t' → ∀ ctx : Context,
      t.read lists (ctx.askNamed names) = t'.read lists (ctx.askNamed names)) :
    s.Synonymous lists names s' where
  name_eq := h.name_eq
  performAll_eq ctx := by
    rw [performAll_program, performAll_program,
      h.read_eq hempty fun t t' ht => hread t t' ht ctx]

end Termwise

end PolicyStatement

namespace Configuration

/-- The same configuration with synonymous statements, simplified or not. -/
structure Reworded (names : List String) (c c' : Configuration) : Prop where
  prefixLists_eq : c.prefixLists = c'.prefixLists
  policyStatements : List.Forall₂ (PolicyStatement.Synonymous c.prefixLists names)
    c.policyStatements c'.policyStatements
  peers_eq : c.peers = c'.peers
  aggregates_eq : c.aggregates = c'.aggregates
  ribGroups_eq : c.ribGroups = c'.ribGroups
  instanceImports_eq : c.instanceImports = c'.instanceImports

namespace Reworded

variable {names : List String} {c c' : Configuration}

theorem symm (h : c.Reworded names c') : c'.Reworded names c where
  prefixLists_eq := h.prefixLists_eq.symm
  policyStatements := by
    refine h.policyStatements.flip.imp fun s s' hs => ?_
    rw [← h.prefixLists_eq]
    exact ⟨hs.name_eq.symm, fun ctx => (hs.performAll_eq ctx).symm⟩
  peers_eq := h.peers_eq.symm
  aggregates_eq := h.aggregates_eq.symm
  ribGroups_eq := h.ribGroups_eq.symm
  instanceImports_eq := h.instanceImports_eq.symm

theorem derives (h : c.Reworded names c') {title : Derived.Title} {p : Policy}
    (hp : c.Derives title p) : c'.Derives title p := by
  cases title <;>
    simpa only [Derives, ← h.peers_eq, ← h.aggregates_eq, ← h.ribGroups_eq,
      ← h.instanceImports_eq] using hp

/-- Every policy of the configuration has a counterpart under its name. -/
theorem exists_counterpart (h : c.Reworded names c') {p : Policy}
    (hp : ∃ d ∈ c.definitions, d.policy = p) :
    ∃ q, (∃ d ∈ c'.definitions, d.policy = q) ∧ p.name = q.name ∧ p.isDerived = q.isDerived ∧
      (p.isDerived = true → p = q) ∧ ∀ ctx, Statement.performAll names ctx p.statements =
        Statement.performAll names ctx q.statements := by
  rcases mem_definitions_iff.mp hp with ⟨s, hs, rfl⟩ | ⟨title, hderives⟩
  · obtain ⟨s', hs', hsame⟩ := exists_related_of_mem h.policyStatements hs
    refine ⟨s'.compile c'.prefixLists, mem_definitions_iff.mpr (.inl ⟨s', hs', rfl⟩),
      hsame.name_eq, rfl, fun hderived => ?_, ?_⟩
    · cases hderived
    · rw [← h.prefixLists_eq]
      exact hsame.performAll_eq
  · exact ⟨p, mem_definitions_iff.mpr (.inr ⟨title, h.derives hderives⟩), rfl, rfl, fun _ => rfl,
      fun _ => rfl⟩

/-- Policies that can be stored together can be in other words. -/
theorem settled (h : c.Reworded names c')
    (hsettled : Policies.Settled (c.definitions.map Definition.policy)) :
    Policies.Settled (c'.definitions.map Definition.policy) := by
  obtain ⟨hallowed, hdistinct, hshared⟩ := Policies.settled_iff.mp hsettled
  -- what can collide is who wrote a policy, its name, and what it is when it is derived
  have hcounterpart : ∀ p ∈ c'.definitions.map Definition.policy,
      ∃ q ∈ c.definitions.map Definition.policy, p.name = q.name ∧ p.isDerived = q.isDerived ∧
        (p.isDerived = true → p = q) := by
    intro p hp
    obtain ⟨q, hq, hname, hderived, hsame, -⟩ := h.symm.exists_counterpart (List.mem_map.mp hp)
    exact ⟨q, List.mem_map.mpr hq, hname, hderived, hsame⟩
  refine Policies.settled_iff.mpr ⟨fun p hp => ?_, ?_, fun p hp q hq hderived hname => ?_⟩
  · obtain ⟨p₀, hp₀, hname, hderived, -⟩ := hcounterpart p hp
    rw [hname, hderived]
    exact hallowed p₀ hp₀
  · rw [names_user_definitions] at hdistinct ⊢
    have hnames : c.policyStatements.map (·.name) = c'.policyStatements.map (·.name) := by
      rw [← List.forall₂_eq_eq_eq, List.forall₂_map_left_iff, List.forall₂_map_right_iff]
      exact h.policyStatements.imp fun _ _ hs => hs.name_eq
    rwa [← hnames]
  · obtain ⟨p₀, hp₀, -, -, hp₀eq⟩ := hcounterpart p hp
    obtain ⟨q₀, hq₀, hq₀name, hq₀derived, hq₀eq⟩ := hcounterpart q hq
    obtain rfl := hp₀eq hderived
    obtain rfl : p = q₀ := hshared p hp₀ q₀ hq₀ hderived (hname.trans hq₀name)
    exact (hq₀eq (hq₀derived.trans hderived)).symm

/-- A configuration can be converted in other words as well. -/
theorem exists_convert (h : c.Reworded names c') (hconvert : ∃ t, c.convert.2 = .ok t) :
    ∃ t', c'.convert.2 = .ok t' :=
  exists_convert_iff.mpr (h.settled (exists_convert_iff.mp hconvert))

/-- **Configurations with synonymous statements have equivalent tables.** -/
theorem equivalent {r r' : Registry} {t t' : Table} (h : c.Reworded r.names c')
    (hc : c.Converted r t) (hc' : c'.Converted r' t') : t.Equivalent t' := by
  have halike : r.Alike r' :=
    { policy := by
        intro p hp
        obtain ⟨q, hq, hname, -, -, hsame⟩ := h.exists_counterpart ((hc.mem_iff p).mp hp)
        exact ⟨q, (hc'.mem_iff q).mpr hq, hname, hsame⟩
      name := by
        intro q hq
        obtain ⟨p, hp, hname, -⟩ := h.symm.exists_counterpart ((hc'.mem_iff q).mp hq)
        exact ⟨p, (hc.mem_iff p).mpr hp, hname.symm⟩ }
  exact hc.equivalent.trans (halike.equivalent.trans hc'.equivalent.symm)

end Reworded

end Configuration

end RoutePolicy
