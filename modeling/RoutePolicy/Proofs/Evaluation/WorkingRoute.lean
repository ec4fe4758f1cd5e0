import RoutePolicy.Proofs.Evaluation.Effect
import RoutePolicy.Proofs.Route.Overlay

/-!
# The working route and the overlay

An evaluation keeps two records of its writes: the working route, on which later conditions and
writes are computed, and the overlay, which is what the caller gets.  They never disagree: at every
moment, inside calls and conditions as well as after a default policy took over, the working route
is the route at the start with the overlay applied.

* `Environment.Tracks` — the two records agree;
* `Machine.tracks_after` — they agree at every moment;
* `Table.evaluate_overlay` — what this says about the decision of an evaluation.
-/

set_option autoImplicit false

namespace RoutePolicy

/-- The working route of an environment is a given route with the overlay applied. -/
def Environment.Tracks (r : Route) (env : Environment) : Prop :=
  env.overlay.applyTo r = .ok env.route

theorem Environment.tracks_startOf (r : Route) : (Table.startOf r).Tracks r :=
  Overlay.applyTo_empty r

theorem Environment.Tracks.congr {r : Route} {env env' : Environment} (h : env.Tracks r)
    (hroute : env'.route = env.route) (hoverlay : env'.overlay = env.overlay) :
    env'.Tracks r := by
  rw [Tracks, hroute, hoverlay]
  exact h

namespace Evaluation

/-- A write that does not fail computes a value, and writes the same value to the route and to the
overlay. -/
theorem of_write_ok {policy : String} {field : RouteField} {update : Update}
    {env env' : Environment} (h : (write policy field update env).result = .ok ((), env')) :
    ∃ value route, update.compute (env.route.get field) = some value ∧
      env.route.write field value = .ok route ∧
      env' = { env with route, overlay := env.overlay.set field value } := by
  unfold write at h
  split at h
  · cases h
  · rename_i value hvalue
    split at h
    · cases h
    · rename_i route hroute
      cases h
      exact ⟨value, route, hvalue, hroute, rfl⟩

theorem tracks_of_write {r : Route} {policy : String} {field : RouteField} {update : Update}
    {env env' : Environment} (henv : env.Tracks r)
    (h : (write policy field update env).result = .ok ((), env')) : env'.Tracks r := by
  obtain ⟨value, route, -, hroute, rfl⟩ := of_write_ok h
  exact Overlay.applyTo_set henv hroute

end Evaluation

namespace Machine

variable {t : Table} {s : Settings} {d : Direction}

/-- Every step keeps the two records in agreement. -/
theorem tracks_step {r : Route} {st st' : Running} (h : st.environment.Tracks r)
    (hstep : step t s d (.running st) = .running st') : st'.environment.Tracks r := by
  have heffect := effect_step (t := t) (s := s) (d := d) st
  rw [hstep] at heffect
  cases heffect with
  | keeps _ hroute hoverlay => exact h.congr hroute hoverlay
  | writes _ field update ss next hcontrol hwrite => exact Evaluation.tracks_of_write h hwrite

/-- At every moment the working route is the route at the start with the overlay applied. -/
theorem tracks_after (policy : String) (r : Route) (n : Nat) {st : Running}
    (h : after t s d policy r n = .running st) : st.environment.Tracks r :=
  invariant_after (P := fun st => st.environment.Tracks r)
    (fun _ _ _ => (Environment.tracks_startOf r).congr rfl rfl)
    (fun _ _ hst hstep => tracks_step hst hstep) n h

/-- The two records agree in the end as well. -/
theorem tracks_halted (policy : String) (r : Route) {n : Nat} {notices : List Notice}
    {final : Table.Completion} (h : after t s d policy r n = .halted notices (.ok final)) :
    final.environment.Tracks r := by
  rcases exists_last h with hresult | ⟨m, st, hst, hstep⟩
  · cases hresult
    exact Environment.tracks_startOf r
  · have htracks := tracks_after policy r m hst
    have heffect := effect_step (t := t) (s := s) (d := d) st
    rw [hstep] at heffect
    cases heffect with
    | decides _ action => exact htracks

end Machine

/-- **The overlay of a decision is exactly what the evaluation did to the route.**  At every moment
of an evaluation the working route is the given route with the overlay applied.  A decision can
therefore be applied to the route, and gives the final working route.  That route differs from the
given one only in the fields that the decision writes, and never in what identifies a route; and
the decision changes nothing more when it is applied to it again. -/
theorem Table.evaluate_overlay (t : Table) (s : Settings) (policy : String) (r : Route)
    (d : Direction) :
    (∀ n st, Machine.after t s d policy r n = .running st →
      st.environment.overlay.applyTo r = .ok st.environment.route) ∧
    (∀ notices decision, t.evaluate s policy r d = (notices, .ok decision) →
      ∃ n final, Machine.after t s d policy r n = .halted notices (.ok final) ∧
        decision = ⟨final.action, final.environment.overlay⟩ ∧
        decision.applyTo r = .ok final.environment.route ∧
        (∀ field, decision.attributes.get? field = none →
          final.environment.route.get field = r.get field) ∧
        final.environment.route.network = r.network ∧
        final.environment.route.protocol = r.protocol ∧
        final.environment.route.sourceVrf = r.sourceVrf ∧
        final.environment.route.sourceInterface = r.sourceInterface ∧
        final.environment.route.addressFamily = r.addressFamily ∧
        final.environment.route.color = r.color ∧
        decision.applyTo final.environment.route = .ok final.environment.route) := by
  refine ⟨fun n st hst => Machine.tracks_after policy r n hst, ?_⟩
  intro notices decision hevaluate
  obtain ⟨n, notices', result, hafter, hresult⟩ := Machine.exists_halted t s d policy r
  rw [hevaluate, Prod.mk.injEq] at hresult
  obtain ⟨rfl, hresult⟩ := hresult
  cases result with
  | error e => cases hresult
  | ok final =>
    have hdecision : decision = ⟨final.action, final.environment.overlay⟩ := by
      cases hresult
      rfl
    have htracks : final.environment.overlay.applyTo r = .ok final.environment.route :=
      Machine.tracks_halted policy r hafter
    have hidentity := (Overlay.applyTo_eq_ok_iff.mp htracks).identity
    subst hdecision
    exact ⟨n, final, hafter, rfl, htracks, fun field => Overlay.get_eq_of_applyTo htracks,
      hidentity.network, hidentity.protocol, hidentity.sourceVrf, hidentity.sourceInterface,
      hidentity.addressFamily, hidentity.color, Overlay.applyTo_self htracks⟩

end RoutePolicy
