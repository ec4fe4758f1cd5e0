import RoutePolicy.Proofs.Evaluation.Agreement
import RoutePolicy.Proofs.Policy.References

/-!
# Evaluations side by side

Two evaluations run in parallel when, from environments that a relation holds between, they report
the same notices and give the same value or the same failure, and the relation holds between the
environments that they leave.  What a program may observe is the route and nothing else of an
environment; so a program runs in parallel with itself, and with a copy of itself whose references
lead to other places, as long as the policies at these places do.

* `Outcome.Match`, `Evaluation.Parallel` — the relation, with one lemma for each way to compose
  evaluations;
* `Environment.Congruence` — the relations between environments that programs keep;
* `Context.Parallel` — the surroundings in which two programs run side by side;
* `Condition.parallel_judge`, `Statement.parallel_runAll` — conditions and programs.
-/

set_option autoImplicit false

namespace RoutePolicy

variable {α β : Type} {E : Environment → Environment → Prop}

/-- The outcomes report the same notices, and they are the same failure or give the same value in
environments that `E` relates. -/
inductive Outcome.Match (E : Environment → Environment → Prop) : Outcome α → Outcome α → Prop where
  | gives (notices : List Notice) (a : α) {env env' : Environment} (related : E env env') :
      Match E ⟨notices, .ok (a, env)⟩ ⟨notices, .ok (a, env')⟩
  | fails (notices : List Notice) (e : MalformedPolicy) :
      Match E ⟨notices, .error e⟩ ⟨notices, .error e⟩

theorem Outcome.Match.of_ok {notices : List Notice} {a : α} {env : Environment} {o : Outcome α}
    (h : Match E ⟨notices, .ok (a, env)⟩ o) :
    ∃ env', o = ⟨notices, .ok (a, env')⟩ ∧ E env env' := by
  cases h with
  | gives _ _ related => exact ⟨_, rfl, related⟩

namespace Evaluation

/-- From environments that `E` relates, both evaluations come to outcomes that match. -/
def Parallel (E : Environment → Environment → Prop) (x y : Evaluation α) : Prop :=
  ∀ env env', E env env' → (x env).Match E (y env')

namespace Parallel

variable {x y : Evaluation α}

protected theorem pure (a : α) : Parallel E (pure a) (pure a) := fun _ _ h => .gives [] a h

protected theorem bind {f g : α → Evaluation β} (hx : Parallel E x y)
    (hf : ∀ a, Parallel E (f a) (g a)) : Parallel E (x >>= f) (y >>= g) := by
  intro env env' h
  have hmatch := hx env env' h
  rw [bind_apply, bind_apply]
  rcases hrun : x env with ⟨notices, result⟩
  rcases hrun' : y env' with ⟨notices', result'⟩
  rw [hrun, hrun'] at hmatch
  cases hmatch with
  | fails _ e => exact .fails _ e
  | gives _ a hmid =>
    have hrest := hf a _ _ hmid
    simp only
    rcases hnext : f a _ with ⟨rest, result⟩
    rcases hnext' : g a _ with ⟨rest', result'⟩
    rw [hnext, hnext'] at hrest
    cases hrest with
    | fails _ e => exact .fails _ e
    | gives _ b hafter => exact .gives _ b hafter

/-- Both sides may look at their environments, which are related. -/
theorem get_bind {f g : Environment → Evaluation β}
    (h : ∀ env env', E env env' → Parallel E (f env) (g env')) :
    Parallel E (get >>= f) (get >>= g) :=
  fun env env' henv => h env env' henv env env' henv

protected theorem modify {f g : Environment → Environment}
    (h : ∀ env env', E env env' → E (f env) (g env')) : Parallel E (modify f) (modify g) :=
  fun env env' henv => .gives [] () (h env env' henv)

protected theorem report (notices : List Notice) :
    Parallel E (report notices) (report notices) :=
  fun _ _ h => .gives notices () h

protected theorem fail (e : MalformedPolicy) :
    Parallel E (fail e : Evaluation α) (fail e) :=
  fun _ _ _ => .fails [] e

protected theorem thenIf [DecidableEq α] {go : α} {x' y' : Evaluation α} (hx : Parallel E x y)
    (hx' : Parallel E x' y') : Parallel E (x.thenIf go x') (y.thenIf go y') := by
  refine hx.bind fun a => ?_
  split
  · exact hx'
  · exact .pure a

end Parallel

end Evaluation

open Evaluation (Parallel)

/-! ## What programs keep -/

/-- A relation between environments that programs keep.  Related environments hold the same route
and the same writes.  They stay related when both make the same write, set the same default action,
set default policies at places that `ρ` relates, or take both defaults back from environments that
are related. -/
structure Environment.Congruence (ρ : PolicyId → PolicyId → Prop)
    (E : Environment → Environment → Prop) : Prop where
  alike : ∀ {env env'}, E env env' → env.Alike env'
  write : ∀ {env env' field value route}, E env env' → env.route.write field value = .ok route →
    ∀ overlay, E { env with route, overlay } { env' with route, overlay }
  setAction : ∀ {env env'}, E env env' → ∀ action,
    E { env with defaultAction := action } { env' with defaultAction := action }
  setPolicy : ∀ {env env' id id'}, E env env' → ρ id id' →
    E { env with defaultPolicy := some id } { env' with defaultPolicy := some id' }
  restore : ∀ {before before' after after'}, E before before' → E after after' →
    E { after with defaultAction := before.defaultAction, defaultPolicy := before.defaultPolicy }
      { after' with defaultAction := before'.defaultAction, defaultPolicy := before'.defaultPolicy }

/-- Two policies run side by side: they have the same name, both or none of them run on behalf of
another one, and the policies that they enter at related places run in parallel. -/
structure Context.Parallel (ρ : PolicyId → PolicyId → Prop)
    (E : Environment → Environment → Prop) (ctx ctx' : Context) : Prop where
  policy_eq : ctx.policy = ctx'.policy
  inCall_eq : ctx.inCall = ctx'.inCall
  enter : ∀ {id id'}, ρ id id' → Evaluation.Parallel E (ctx.enter id) (ctx'.enter id')

variable {ρ : PolicyId → PolicyId → Prop} {ctx ctx' : Context}

namespace Context.Parallel

theorem visit (h : ctx.Parallel ρ E ctx') {r r' : Reference} (hr : Option.Rel ρ r.link r'.link) :
    Evaluation.Parallel E (ctx.visit r) (ctx'.visit r') := by
  unfold Context.visit
  generalize r.link = link at hr
  generalize r'.link = link' at hr
  cases hr with
  | none => exact .pure _
  | some hplaces => exact h.enter hplaces

theorem call (h : ctx.Parallel ρ E ctx') {r r' : Reference} (hr : Option.Rel ρ r.link r'.link) :
    Evaluation.Parallel E (ctx.call r) (ctx'.call r') := by
  refine (h.visit hr).bind fun entry => ?_
  rcases entry with _ | _ | ⟨callee, _ | action | verdict⟩ <;> exact .pure _

theorem ask (hE : Environment.Congruence ρ E) (h : ctx.Parallel ρ E ctx') {r r' : Reference}
    (hr : Option.Rel ρ r.link r'.link) : Evaluation.Parallel E (ctx.ask r) (ctx'.ask r') := by
  refine .get_bind fun before before' hbefore => (h.visit hr).bind fun entry => ?_
  cases entry with
  | absent => exact .pure _
  | refused => exact .pure _
  | ran callee flow =>
    refine (Evaluation.Parallel.modify fun _ _ hafter => hE.restore hbefore hafter).bind
      fun _ => ?_
    rw [h.policy_eq]
    exact (Evaluation.Parallel.report _).bind fun _ => .pure _

variable {f : Reference → Reference}

theorem askFirst (hE : Environment.Congruence ρ E) (h : ctx.Parallel ρ E ctx')
    {rs : List Reference} (hrs : ∀ r ∈ rs, Option.Rel ρ r.link (f r).link) :
    Evaluation.Parallel E (ctx.askFirst rs) (ctx'.askFirst (rs.map f)) := by
  induction rs with
  | nil => exact .pure _
  | cons r rs ih =>
    obtain ⟨hr, hrest⟩ := List.forall_mem_cons.mp hrs
    rw [List.map_cons, Context.askFirst, Context.askFirst]
    refine (ask hE h hr).bind fun v => ?_
    split
    · exact .pure v
    · exact ih hrest

theorem askAll (hE : Environment.Congruence ρ E) (h : ctx.Parallel ρ E ctx')
    {rs : List Reference} (hrs : ∀ r ∈ rs, Option.Rel ρ r.link (f r).link) :
    Evaluation.Parallel E (ctx.askAll rs) (ctx'.askAll (rs.map f)) := by
  induction rs with
  | nil => exact .pure _
  | cons r rs ih =>
    obtain ⟨hr, hrest⟩ := List.forall_mem_cons.mp hrs
    rw [List.map_cons, Context.askAll, Context.askAll]
    refine (ask hE h hr).bind fun v => ?_
    split
    · exact ih hrest
    · exact .pure _

end Context.Parallel

/-! ## Programs -/

namespace Condition

variable {f : Reference → Reference}

mutual

/-- A condition and its copy with other references give the same verdict. -/
theorem parallel_judge (hE : Environment.Congruence ρ E) (h : ctx.Parallel ρ E ctx') :
    (c : Condition) → (∀ r ∈ c.references, Option.Rel ρ r.link (f r).link) →
    Parallel E (c.judge ctx) ((c.mapReferences f).judge ctx')
  | .literal b, _ => .pure _
  | .test p, _ => by
    refine .get_bind fun env env' henv => ?_
    rw [(hE.alike henv).route_eq]
    exact .pure _
  | .not c, hc => by
    rw [mapReferences, judge, judge]
    exact (parallel_judge hE h c hc).bind fun v => .pure _
  | .all cs, hcs => by
    rw [mapReferences, judge, judge]
    exact (parallel_judgeEach hE h cs hcs).bind fun vs => .pure _
  | .any cs, hcs => by
    rw [mapReferences, judge, judge]
    exact (parallel_judgeEach hE h cs hcs).bind fun vs => .pure _
  | .firstMatch targets, htargets => Context.Parallel.askFirst hE h htargets
  | .allMatch targets, htargets => by
    rw [mapReferences, judge, judge, List.isEmpty_map]
    split
    · exact .pure _
    · exact (Context.Parallel.askAll hE h htargets).bind fun b => .pure _
  | .callPolicy target, htarget => Context.Parallel.ask hE h (htarget target List.mem_cons_self)
  | .inCall, _ => by
    rw [mapReferences, judge, judge, h.inCall_eq]
    exact .pure _

theorem parallel_judgeEach (hE : Environment.Congruence ρ E) (h : ctx.Parallel ρ E ctx') :
    (cs : List Condition) → (∀ r ∈ referencesAll cs, Option.Rel ρ r.link (f r).link) →
    Parallel E (judgeEach ctx cs) (judgeEach ctx' (mapReferencesAll f cs))
  | [], _ => .pure _
  | c :: cs, hcs => by
    rw [referencesAll] at hcs
    obtain ⟨hc, hrest⟩ := List.forall_mem_append.mp hcs
    rw [mapReferencesAll, judgeEach, judgeEach]
    refine (parallel_judge hE h c hc).bind fun v => ?_
    exact (parallel_judgeEach hE h cs hrest).bind fun vs => .pure _

end

end Condition

theorem parallel_write (hE : Environment.Congruence ρ E) (policy : String) (field : RouteField)
    (update : Update) :
    Parallel E (Evaluation.write policy field update) (Evaluation.write policy field update) := by
  rw [Evaluation.write_eq]
  refine .get_bind fun env env' henv => ?_
  obtain ⟨hroute, hoverlay⟩ := hE.alike henv
  rw [hroute, hoverlay]
  cases update.compute (env'.route.get field) with
  | none => exact .fail _
  | some value =>
    simp only
    cases hwrite : env'.route.write field value with
    | error misfit => exact .fail _
    | ok route =>
      have hrelated := hE.write henv (hroute ▸ hwrite) (env'.overlay.set field value)
      exact .modify fun _ _ _ => hrelated

theorem parallel_control (hE : Environment.Congruence ρ E) (kind : Control) :
    Parallel E kind.run kind.run := by
  cases kind with
  | defaultAccept =>
    exact (Parallel.modify fun _ _ henv => hE.setAction henv .accept).bind fun _ => .pure _
  | defaultReject =>
    exact (Parallel.modify fun _ _ henv => hE.setAction henv .reject).bind fun _ => .pure _
  | _ => exact .pure _

namespace Statement

variable {f : Reference → Reference}

theorem parallel_setDefaultPolicy (hE : Environment.Congruence ρ E) {r r' : Reference}
    (hr : Option.Rel ρ r.link r'.link) :
    Parallel E ((setDefaultPolicy r).run ctx) ((setDefaultPolicy r').run ctx') := by
  rw [run, run]
  generalize r.link = link at hr
  generalize r'.link = link' at hr
  cases hr with
  | none => exact (Parallel.pure ()).bind fun _ => .pure _
  | some hplaces =>
    exact (Parallel.modify fun _ _ henv => hE.setPolicy henv hplaces).bind fun _ => .pure _

mutual

theorem parallel_run (hE : Environment.Congruence ρ E) (h : ctx.Parallel ρ E ctx') :
    (s : Statement) → (∀ r ∈ s.references, Option.Rel ρ r.link (f r).link) →
    Parallel E (s.run ctx) ((s.mapReferences f).run ctx')
  | .branch guard a b, hs => by
    rw [references] at hs
    obtain ⟨hfront, hb⟩ := List.forall_mem_append.mp hs
    obtain ⟨hguard, ha⟩ := List.forall_mem_append.mp hfront
    rw [mapReferences, run, run]
    refine (guard.parallel_judge hE h hguard).bind fun v => ?_
    split
    · exact parallel_runAll hE h a ha
    · exact parallel_runAll hE h b hb
  | .write field update, _ => by
    rw [mapReferences, run, run, h.policy_eq]
    exact (parallel_write hE ctx'.policy field update).bind fun _ => .pure _
  | .setDefaultPolicy target, hs => by
    rw [mapReferences]
    exact parallel_setDefaultPolicy hE (hs target List.mem_cons_self)
  | .call target, hs => by
    rw [mapReferences, run, run]
    exact h.call (hs target List.mem_cons_self)
  | .comment text, _ => .pure _
  | .control kind, _ => by
    rw [mapReferences, run, run]
    exact parallel_control hE kind

/-- **A program and its copy with other references do the same**, when the policies at the places of
the references do. -/
theorem parallel_runAll (hE : Environment.Congruence ρ E) (h : ctx.Parallel ρ E ctx') :
    (ss : List Statement) → (∀ r ∈ referencesAll ss, Option.Rel ρ r.link (f r).link) →
    Parallel E (runAll ctx ss) (runAll ctx' (mapReferencesAll f ss))
  | [], _ => .pure _
  | s :: ss, hs => by
    rw [referencesAll] at hs
    obtain ⟨hfirst, hrest⟩ := List.forall_mem_append.mp hs
    rw [mapReferencesAll, runAll_cons, runAll_cons]
    exact (parallel_run hE h s hfirst).thenIf (parallel_runAll hE h ss hrest)

end

end Statement

end RoutePolicy
