import RoutePolicy.Proofs.Evaluation.Entering

/-!
# Tables whose policies do the same

Two policies are equivalent when they have the same name and do the same in every context; two
tables are when the policies at each place are.  Equivalent tables evaluate every policy alike:
they report the same notices, make the same writes and decide or fail the same way.

* `Table.runPolicy_congr`, `Table.runFrom_congr` — by induction on the policies that are not yet
  on the stack, or had no top-level run yet;
* `Table.evaluate_congr` — the result for a whole evaluation.
-/

set_option autoImplicit false

namespace RoutePolicy

/-- The policies have the same name and do the same wherever they run. -/
structure Policy.Equivalent (p q : Policy) : Prop where
  name_eq : p.name = q.name
  runAll_eq : ∀ ctx : Context,
    Statement.runAll ctx p.statements = Statement.runAll ctx q.statements

namespace Policy.Equivalent

variable {p q r : Policy}

theorem refl (p : Policy) : p.Equivalent p := ⟨rfl, fun _ => rfl⟩

theorem symm (h : p.Equivalent q) : q.Equivalent p :=
  ⟨h.name_eq.symm, fun ctx => (h.runAll_eq ctx).symm⟩

theorem trans (h : p.Equivalent q) (h' : q.Equivalent r) : p.Equivalent r :=
  ⟨h.name_eq.trans h'.name_eq, fun ctx => (h.runAll_eq ctx).trans (h'.runAll_eq ctx)⟩

end Policy.Equivalent

namespace Table

variable {t u : Table}

/-- The policies at each place are equivalent. -/
structure Equivalent (t u : Table) : Prop where
  size_eq : t.size = u.size
  policy : ∀ {id : PolicyId} {p q : Policy},
    t.get? id = some p → u.get? id = some q → p.Equivalent q

namespace Equivalent

theorem get?_none (h : t.Equivalent u) {id : PolicyId} (hg : t.get? id = none) :
    u.get? id = none := by
  have hs := h.size_eq
  simp only [get?, size, List.getElem?_eq_none_iff] at *
  omega

theorem get?_some (h : t.Equivalent u) {id : PolicyId} {p : Policy} (hg : t.get? id = some p) :
    ∃ q, u.get? id = some q ∧ p.Equivalent q := by
  have hl : id.index < u.size := h.size_eq ▸ index_lt_of_get? hg
  have hu : u.get? id = some (u.policies.get ⟨id.index, hl⟩) := List.getElem?_eq_getElem hl
  exact ⟨_, hu, h.policy hg hu⟩

theorem refl (t : Table) : t.Equivalent t where
  size_eq := rfl
  policy hp hq := by
    rw [hp, Option.some.injEq] at hq
    exact hq ▸ .refl _

theorem symm (h : t.Equivalent u) : u.Equivalent t where
  size_eq := h.size_eq.symm
  policy hp hq := (h.policy hq hp).symm

theorem trans {v : Table} (h : t.Equivalent u) (h' : u.Equivalent v) : t.Equivalent v where
  size_eq := h.size_eq.trans h'.size_eq
  policy hp hr := by
    obtain ⟨q, hq, hpq⟩ := h.get?_some hp
    exact hpq.trans (h'.policy hq hr)

theorem nameOf_eq (h : t.Equivalent u) (id : PolicyId) : t.nameOf id = u.nameOf id := by
  unfold nameOf
  cases hg : t.get? id with
  | none => rw [h.get?_none hg]
  | some p =>
    obtain ⟨q, hu, hpq⟩ := h.get?_some hg
    rw [hu]
    exact hpq.name_eq

theorem names_eq (h : t.Equivalent u) : t.names = u.names := by
  unfold names
  refine List.ext_getElem (by simpa [size] using h.size_eq) fun i hi hj => ?_
  simp only [List.length_map] at hi hj
  simp only [List.getElem_map]
  have ht : t.get? ⟨i⟩ = some t.policies[i] := List.getElem?_eq_getElem hi
  have hu : u.get? ⟨i⟩ = some u.policies[i] := List.getElem?_eq_getElem hj
  exact (h.policy ht hu).name_eq

theorem idOf?_eq (h : t.Equivalent u) (name : String) : t.idOf? name = u.idOf? name := by
  have hn : t.policies.map (·.name) = u.policies.map (·.name) := h.names_eq
  unfold idOf?
  rw [hn]

theorem cycleNotices_eq (h : t.Equivalent u) (policy : String) (path : List PolicyId) :
    t.cycleNotices policy path = u.cycleNotices policy path := by
  have hn : t.nameOf = u.nameOf := funext h.nameOf_eq
  unfold cycleNotices
  rw [hn]

end Equivalent

/-- Equivalent policies run alike under the same stack. -/
theorem runPolicy_congr (h : t.Equivalent u) (s : Settings) (stack : List PolicyId)
    {p q : Policy} (hpq : p.Equivalent q) :
    t.runPolicy s stack p = u.runPolicy s stack q := by
  induction hn : t.unvisited stack using Nat.strongRecOn generalizing stack p q with
  | ind n ih =>
    subst hn
    have henter : t.enter s stack q.name = u.enter s stack q.name := by
      funext id
      unfold enter
      cases hg : t.get? id with
      | none => rw [h.get?_none hg]
      | some callee =>
        obtain ⟨callee', hu, hc⟩ := h.get?_some hg
        rw [hu]
        simp only
        split
        · rw [h.cycleNotices_eq]
        · rename_i hs
          have hless := unvisited_append_lt hs (index_lt_of_get? hg)
          rw [ih _ hless (stack ++ [id]) hc rfl, hc.name_eq]
    rw [runPolicy_eq, runPolicy_eq, hpq.runAll_eq, hpq.name_eq]
    unfold context
    rw [henter]

/-- Nothing tells equivalent tables apart in what comes after a top-level run. -/
theorem ending_congr (h : t.Equivalent u) (visited : List PolicyId) (env : Environment)
    (flow : Flow) :
    (∃ next p q, t.ending visited env flow = .fallsTo next p ∧
      u.ending visited env flow = .fallsTo next q ∧ p.Equivalent q) ∨
    (t.ending visited env flow = u.ending visited env flow ∧
      ∀ next p, t.ending visited env flow ≠ .fallsTo next p) := by
  cases flow with
  | exits action => exact .inr ⟨rfl, by simp [ending]⟩
  | _ =>
    unfold ending
    cases env.defaultPolicy with
    | none => exact .inr ⟨rfl, by simp⟩
    | some next =>
      simp only
      split
      · exact .inr ⟨rfl, by simp⟩
      · cases hg : t.get? next with
        | none =>
          rw [h.get?_none hg]
          exact .inr ⟨rfl, by simp⟩
        | some p =>
          obtain ⟨q, hu, hpq⟩ := h.get?_some hg
          rw [hu]
          exact .inl ⟨next, p, q, rfl, rfl, hpq⟩

/-- Equivalent policies have the same top-level runs, with the same default policies after
them. -/
theorem runFrom_congr (h : t.Equivalent u) (s : Settings) (d : Direction)
    (visited : List PolicyId) (id : PolicyId) {p q : Policy} (hpq : p.Equivalent q)
    (env : Environment) :
    t.runFrom s d visited id p env = u.runFrom s d visited id q env := by
  induction hn : t.unvisited visited using Nat.strongRecOn generalizing visited id p q env with
  | ind n ih =>
    subst hn
    rw [runFrom_eq, runFrom_eq, runPolicy_congr h s [id] hpq, hpq.name_eq]
    split
    · rfl
    · rename_i ran flow env' hrun
      rcases ending_congr h visited env' flow with ⟨next, p', q', ht, hu, hpq'⟩ | ⟨heq, hend⟩
      · obtain ⟨hv, hg⟩ := of_ending_fallsTo t ht
        have hless := unvisited_append_lt hv (index_lt_of_get? hg)
        simp only [ht, hu]
        rw [ih _ hless (visited ++ [next]) next hpq' env' rfl, hpq'.name_eq]
      · rw [← heq]
        cases he : t.ending visited env' flow with
        | decides action => rfl
        | repeats next => simp only [h.cycleNotices_eq]
        | fallsTo next p' => exact absurd he (hend next p')

/-- **Equivalent tables evaluate every policy alike.** -/
theorem evaluate_congr (h : t.Equivalent u) (s : Settings) (policy : String) (r : Route)
    (d : Direction) : t.evaluate s policy r d = u.evaluate s policy r d := by
  unfold evaluate
  rw [h.idOf?_eq]
  cases u.idOf? policy with
  | none => rfl
  | some id =>
    simp only
    cases hg : t.get? id with
    | none => rw [h.get?_none hg]
    | some p =>
      obtain ⟨q, hu, hpq⟩ := h.get?_some hg
      rw [hu]
      simp only [runFrom_congr h s d [id] id hpq]

end Table

end RoutePolicy
