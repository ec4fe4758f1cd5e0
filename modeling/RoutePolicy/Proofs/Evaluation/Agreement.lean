import RoutePolicy.Proofs.Evaluation.Entering

/-!
# Evaluations that agree

Two evaluations agree when they do the same to a route: from environments with the same route and
the same writes they give the same value and leave environments with the same route and the same
writes again.  Default actions may differ, and so may what is reported.

* `Evaluation.Gives` — an evaluation ends with a value, with one lemma for each way to compose
  evaluations;
* `Context.gives_ask`, `Context.gives_call_exits`, `Table.gives_visit` — calls, from what the callee
  does;
* `Table.runFrom_of_exits`, `Table.runFrom_of_default` — top-level runs;
* `Evaluation.Agree` — the relation, which every composition preserves.
-/

set_option autoImplicit false

namespace RoutePolicy

namespace Evaluation

variable {α β : Type}

/-- Starting from `env`, the evaluation gives a value and ends in `after`. -/
def Gives (x : Evaluation α) (env : Environment) (a : α) (after : Environment) : Prop :=
  (x env).result = .ok (a, after)

namespace Gives

variable {x : Evaluation α} {env mid after : Environment} {a : α} {b : β}

protected theorem pure (a : α) (env : Environment) : (pure a : Evaluation α).Gives env a env := rfl

protected theorem get (env : Environment) : get.Gives env env env := rfl

protected theorem modify (f : Environment → Environment) (env : Environment) :
    (modify f).Gives env () (f env) := rfl

protected theorem report (notices : List Notice) (env : Environment) :
    (report notices).Gives env () env := rfl

protected theorem bind {f : α → Evaluation β} (hx : x.Gives env a mid)
    (hf : (f a).Gives mid b after) : (x >>= f).Gives env b after := by
  unfold Gives at *
  rw [bind_apply]
  rcases hrun : x env with ⟨notices, result⟩
  rw [hrun] at hx
  subst hx
  exact hf

/-- What is done by one evaluation after the other is done by the first and then by the second. -/
theorem of_bind {f : α → Evaluation β} (h : (x >>= f).Gives env b after) :
    ∃ a mid, x.Gives env a mid ∧ (f a).Gives mid b after := by
  unfold Gives at *
  rw [bind_apply] at h
  rcases hrun : x env with ⟨notices, e | ⟨a, mid⟩⟩
  · rw [hrun] at h
    cases h
  · rw [hrun] at h
    exact ⟨a, mid, rfl, h⟩

protected theorem map (f : α → β) (hx : x.Gives env a after) : (f <$> x).Gives env (f a) after := by
  rw [map_eq_pure_bind]
  exact hx.bind (.pure _ _)

/-- An evaluation ends with one value at most. -/
theorem value_unique {after' : Environment} {a' : α} (h : x.Gives env a after)
    (h' : x.Gives env a' after') : a = a' := by
  unfold Gives at h h'
  rw [h] at h'
  cases h'
  rfl

end Gives

end Evaluation

open Evaluation (Gives)

/-! ## Calls -/

namespace Context

variable {ctx : Context} {r : Reference} {env after : Environment} {callee : String} {flow : Flow}

/-- Nothing happens when the policy that is asked does not run. -/
theorem gives_ask_unrun {entry : Entry} (hentry : entry = .absent ∨ entry = .refused)
    (h : (ctx.visit r).Gives env entry after) : (ctx.ask r).Gives env .unmatched after := by
  refine (Gives.get env).bind (h.bind ?_)
  rcases hentry with rfl | rfl
  · exact .pure _ _
  · exact .pure _ _

/-- The policy that is asked gives its verdict, and its writes stay. -/
theorem gives_ask (h : (ctx.visit r).Gives env (.ran callee flow) after) :
    (ctx.ask r).Gives env flow.verdict
      { after with defaultAction := env.defaultAction, defaultPolicy := env.defaultPolicy } := by
  refine (Gives.get env).bind (h.bind ?_)
  exact (Gives.modify _ _).bind ((Gives.report _ _).bind (.pure _ _))

theorem gives_call_exits {action : Action}
    (h : (ctx.visit r).Gives env (.ran callee (.exits action)) after) :
    (ctx.call r).Gives env (.exits action) after :=
  h.bind (.pure _ _)

theorem gives_call_fallsThrough (h : (ctx.visit r).Gives env (.ran callee flow) after)
    (hflow : ∀ action, flow ≠ .exits action) : (ctx.call r).Gives env .fallsThrough after := by
  refine h.bind ?_
  cases flow with
  | exits action => exact absurd rfl (hflow action)
  | fallsThrough => exact .pure _ _
  | returns verdict => exact .pure _ _

end Context

namespace Table

variable {t : Table} {s : Settings} {stack : List PolicyId} {id : PolicyId} {p : Policy}
  {env after : Environment} {flow : Flow}

/-- A policy that is running is not entered again. -/
theorem gives_visit_refused (policy : String) (ref : Reference) (hlink : ref.link = some id)
    (hg : t.get? id = some p) (hrunning : id ∈ stack) :
    ((t.context s stack policy).visit ref).Gives env .refused env := by
  have hvisit : (t.context s stack policy).visit ref = t.enter s stack policy id := by
    rw [Context.visit, hlink]
    rfl
  rw [hvisit, enter, hg]
  simp only [if_pos hrunning]
  exact (Gives.report _ _).bind (.pure _ _)

/-- A policy that is not running is entered as long as calls may nest deeper. -/
theorem gives_visit (policy : String) (ref : Reference) (hlink : ref.link = some id)
    (hg : t.get? id = some p) (hfresh : id ∉ stack) (hdepth : stack.length - 1 < s.maxCallDepth)
    (hrun : (t.runPolicy s (stack ++ [id]) p).Gives env flow after) :
    ((t.context s stack policy).visit ref).Gives env (.ran p.name flow) after := by
  have hvisit : (t.context s stack policy).visit ref = t.enter s stack policy id := by
    rw [Context.visit, hlink]
    rfl
  rw [hvisit, enter, hg]
  simp only [if_neg hfresh, if_neg (Nat.not_le.mpr hdepth)]
  exact hrun.bind (.pure _ _)

/-! ## Top-level runs -/

variable {d : Direction} (visited : List PolicyId)

/-- An exit of a top-level run ends the evaluation. -/
theorem runFrom_of_exits {action : Action}
    (h : (t.runPolicy s [id] p).Gives (freshen s d p.name env) (.exits action) after) :
    (t.runFrom s d visited id p env).2 = .ok ⟨action, after⟩ := by
  unfold Gives at h
  rcases hrun : t.runPolicy s [id] p (freshen s d p.name env) with ⟨ran, result⟩
  rw [hrun] at h
  subst h
  exact (runFrom_decides hrun rfl).1

/-- A top-level run that nothing decides is followed by the run of its default policy. -/
theorem runFrom_of_default {mid : Environment} {next : PolicyId} {q : Policy} {action : Action}
    (h : (t.runPolicy s [id] p).Gives (freshen s d p.name env) .fallsThrough mid)
    (hdefault : mid.defaultPolicy = some next) (hfresh : next ∉ visited)
    (hg : t.get? next = some q)
    (hnext : (t.runPolicy s [next] q).Gives (freshen s d q.name mid) (.exits action) after) :
    (t.runFrom s d visited id p env).2 = .ok ⟨action, after⟩ := by
  have hending : t.ending visited mid .fallsThrough = .fallsTo next q := by
    simp only [ending, hdefault, if_neg hfresh, hg]
  unfold Gives at h
  rcases hrun : t.runPolicy s [id] p (freshen s d p.name env) with ⟨ran, result⟩
  rw [hrun] at h
  subst h
  rw [(runFrom_fallsTo hrun hending).1]
  exact runFrom_of_exits _ hnext

end Table

/-! ## Agreement -/

/-- The environments hold the same route and the same writes. -/
structure Environment.Alike (env env' : Environment) : Prop where
  route_eq : env.route = env'.route
  overlay_eq : env.overlay = env'.overlay

/-- What policies of users leave as it is: the protocol of the route and the default policy. -/
structure Environment.Keeps (env after : Environment) : Prop where
  protocol_eq : after.route.protocol = env.route.protocol
  defaultPolicy_eq : after.defaultPolicy = env.defaultPolicy

theorem Environment.Keeps.refl (env : Environment) : env.Keeps env := ⟨rfl, rfl⟩

theorem Environment.Keeps.trans {env mid after : Environment} (h : env.Keeps mid)
    (h' : mid.Keeps after) : env.Keeps after where
  protocol_eq := h'.protocol_eq.trans h.protocol_eq
  defaultPolicy_eq := h'.defaultPolicy_eq.trans h.defaultPolicy_eq

namespace Evaluation

variable {α β : Type}

/-- From environments that are alike, both evaluations give one value and end in environments that
are alike. -/
def Agree (x y : Evaluation α) : Prop :=
  ∀ env env' : Environment, env.Alike env' → ∃ a after after',
    x.Gives env a after ∧ y.Gives env' a after' ∧ after.Alike after' ∧ env.Keeps after ∧
      env'.Keeps after'

namespace Agree

variable {x y : Evaluation α}

protected theorem pure (a : α) : Agree (pure a) (pure a) := by
  intro env env' h
  exact ⟨a, env, env', .pure a env, .pure a env', h, .refl env, .refl env'⟩

protected theorem bind {f g : α → Evaluation β} (hx : Agree x y) (hf : ∀ a, Agree (f a) (g a)) :
    Agree (x >>= f) (y >>= g) := by
  intro env env' h
  obtain ⟨a, mid, mid', hxa, hya, hmid, hkeeps, hkeeps'⟩ := hx env env' h
  obtain ⟨b, after, after', hfb, hgb, hafter, hkept, hkept'⟩ := hf a mid mid' hmid
  exact ⟨b, after, after', hxa.bind hfb, hya.bind hgb, hafter, hkeeps.trans hkept,
    hkeeps'.trans hkept'⟩

/-- Both sides may look at their environments, which are alike. -/
theorem get_bind {f g : Environment → Evaluation β}
    (h : ∀ env env', env.Alike env' → Agree (f env) (g env')) : Agree (get >>= f) (get >>= g) := by
  intro env env' halike
  obtain ⟨b, after, after', hfb, hgb, hrest⟩ := h env env' halike env env' halike
  exact ⟨b, after, after', (Gives.get env).bind hfb, (Gives.get env').bind hgb, hrest⟩

protected theorem modify {f : Environment → Environment}
    (halike : ∀ env env', env.Alike env' → (f env).Alike (f env'))
    (hkeeps : ∀ env : Environment, env.Keeps (f env)) : Agree (modify f) (modify f) := by
  intro env env' h
  exact ⟨(), f env, f env', .modify f env, .modify f env', halike env env' h, hkeeps env,
    hkeeps env'⟩

protected theorem thenIf [DecidableEq α] {go : α} {x' y' : Evaluation α} (hx : Agree x y)
    (hx' : Agree x' y') : Agree (x.thenIf go x') (y.thenIf go y') := by
  refine hx.bind fun a => ?_
  split
  · exact hx'
  · exact .pure a

end Agree

end Evaluation

end RoutePolicy
