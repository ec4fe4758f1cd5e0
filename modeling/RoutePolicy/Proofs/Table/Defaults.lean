import RoutePolicy.Proofs.Table.Renaming

/-!
# What default actions and directions can change

A table is a renaming of itself that moves nothing.  So two evaluations of one policy on one route,
whatever their directions and default actions are, can only end differently when neither of them
reaches a decision of a policy: then each ends with the default action it started with.

* `Table.renaming_self` — the renaming;
* `Table.runPolicy_settings` — a run of a policy reads no setting but the nesting that is allowed;
* `Table.context_parallel_self`, `Table.parallel_runAll_self` — calls and programs do the same from
  environments that are related;
* `Table.evaluate_fallthrough` — the result for whole evaluations.
-/

set_option autoImplicit false

namespace RoutePolicy

theorem optionRel_eq_refl {α : Type} (x : Option α) : Option.Rel Eq x x := by
  cases x with
  | none => exact .none
  | some a => exact .some rfl

theorem Policy.renamed_self (p : Policy) : p.Renamed Eq p where
  name_eq := rfl
  statements_eq :=
    ⟨fun r => r, (Statement.mapReferencesAll_self p.statements).symm,
      fun r _ => optionRel_eq_refl r.link⟩

theorem Environment.congruence_eq : Environment.Congruence Eq Eq where
  alike h := h ▸ ⟨rfl, rfl⟩
  write h _ _ := h ▸ rfl
  setAction h _ := h ▸ rfl
  setPolicy h hplaces := h ▸ hplaces ▸ rfl
  restore hbefore hafter := hbefore ▸ hafter ▸ rfl

theorem Evaluation.Parallel.eq {α : Type} {x y : Evaluation α} (h : Parallel Eq x y) : x = y := by
  apply Evaluation.ext
  intro env
  have hmatch := h env env rfl
  generalize x env = ox at hmatch
  generalize y env = oy at hmatch
  cases hmatch with
  | fails _ _ => rfl
  | gives _ _ hafter => rw [hafter]

namespace Table

variable {t : Table} {s s' : Settings}

theorem renaming_self (t : Table) : t.Renaming t Eq where
  place_eq_iff h h' := by rw [h, h']
  nameOf_eq h := by rw [h]
  policy {a b} h := by
    rw [h]
    cases t.get? b with
    | none => exact .none
    | some p => exact .some p.renamed_self

/-- A run of a policy depends on no setting but the nesting of calls that is allowed. -/
theorem runPolicy_settings (hs : s.maxCallDepth = s'.maxCallDepth) (stack : List PolicyId)
    (p : Policy) : t.runPolicy s stack p = t.runPolicy s' stack p :=
  (t.renaming_self.parallel_runPolicy Environment.congruence_eq hs
    (List.forall₂_same.mpr fun _ _ => rfl) p.renamed_self).eq

/-- The surroundings of a policy in a table run side by side with themselves. -/
theorem context_parallel_self {E : Environment → Environment → Prop}
    (hE : Environment.Congruence Eq E) (t : Table) (s : Settings) (stack : List PolicyId)
    (policy : String) : (t.context s stack policy).Parallel Eq E (t.context s stack policy) := by
  have hstack : List.Forall₂ Eq stack stack := List.forall₂_same.mpr fun _ _ => rfl
  exact t.renaming_self.context_parallel rfl hstack policy fun hab _ _ hpq =>
    t.renaming_self.parallel_runPolicy hE rfl (Renaming.forall₂_concat hstack hab) hpq

/-- A program runs in parallel with itself in the surroundings of a table. -/
theorem parallel_runAll_self {E : Environment → Environment → Prop}
    (hE : Environment.Congruence Eq E) (t : Table) (s : Settings) (stack : List PolicyId)
    (policy : String) (ss : List Statement) :
    Evaluation.Parallel E (Statement.runAll (t.context s stack policy) ss)
      (Statement.runAll (t.context s stack policy) ss) := by
  have hparallel := Statement.parallel_runAll hE (context_parallel_self hE t s stack policy) ss
    fun r _ => optionRel_eq_refl r.link
  rw [Statement.mapReferencesAll_self] at hparallel
  exact hparallel

theorem evaluate_sameButFirst (t : Table) (s s' : Settings)
    (hs : s.maxCallDepth = s'.maxCallDepth) (policy : String) (route : Route) (d d' : Direction) :
    diagnosticsOf (t.evaluate s policy route d).1 =
        diagnosticsOf (t.evaluate s' policy route d').1 ∧
      Decision.SameButFirst (s.startingAction d) (s'.startingAction d')
        (t.evaluate s policy route d).2 (t.evaluate s' policy route d').2 :=
  t.renaming_self.evaluate_match hs (optionRel_eq_refl _) route

/-- Evaluations that start with the same default action end the same, whatever their directions
are. -/
theorem evaluate_eq_of_startingAction (hs : s.maxCallDepth = s'.maxCallDepth) (policy : String)
    (route : Route) {d d' : Direction} (hfirst : s.startingAction d = s'.startingAction d') :
    (t.evaluate s policy route d).2 = (t.evaluate s' policy route d').2 := by
  have hsame := (t.evaluate_sameButFirst s s' hs policy route d d').2
  rw [hfirst] at hsame
  exact hsame.eq

/-- **The direction and the initial default action only matter to a route that nothing decides.**
Two evaluations that differ in nothing else record the same diagnostics.  They fail the same way, or
they make the same writes, and then either their results are equal or each is the default action
that its own evaluation started with.  So the direction does not matter where a default action is
given, and it never matters whether a route goes out or into an aggregate. -/
theorem evaluate_fallthrough (t : Table) (policy : String) (route : Route) (maxCallDepth : Nat) :
    (∀ (a a' : Option Action) (d d' : Direction),
      let x := t.evaluate { defaultAction := a, maxCallDepth } policy route d
      let y := t.evaluate { defaultAction := a', maxCallDepth } policy route d'
      diagnosticsOf x.1 = diagnosticsOf y.1 ∧
        ((∃ e, x.2 = .error e ∧ y.2 = .error e) ∨
          ∃ result result' attributes,
            x.2 = .ok { result, attributes } ∧ y.2 = .ok { result := result', attributes } ∧
            (result = result' ∨
              result = a.getD d.conventionalAction ∧ result' = a'.getD d'.conventionalAction))) ∧
    (∀ (action : Action) (d d' : Direction),
      (t.evaluate { defaultAction := some action, maxCallDepth } policy route d).2 =
        (t.evaluate { defaultAction := some action, maxCallDepth } policy route d').2) ∧
    (∀ a : Option Action,
      (t.evaluate { defaultAction := a, maxCallDepth } policy route .outbound).2 =
        (t.evaluate { defaultAction := a, maxCallDepth } policy route .generation).2) := by
  refine ⟨fun a a' d d' => ?_, fun action d d' => ?_, fun a => ?_⟩
  · obtain ⟨hdiagnostics, hsame⟩ := t.evaluate_sameButFirst { defaultAction := a, maxCallDepth }
      { defaultAction := a', maxCallDepth } rfl policy route d d'
    exact ⟨hdiagnostics, hsame.outcomes⟩
  · exact evaluate_eq_of_startingAction rfl policy route rfl
  · exact evaluate_eq_of_startingAction rfl policy route rfl

end Table

end RoutePolicy
