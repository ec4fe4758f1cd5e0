import RoutePolicy.Evaluation.Interpreter

/-!
# Laws of evaluations

Evaluations form a lawful monad.  Lists of statements are run by one more operation:
`x.thenIf .fallsThrough y` does what `x` does and then, where control falls through, what `y`
does.  With `pure .fallsThrough` as its unit it is associative, so that programs can be taken apart
at any statement.

* `Evaluation.write_eq` — a write in terms of reading, failing and changing the environment;
* `Evaluation.Silent` — an evaluation that reads the environment and has no effect;
* `Condition.silent_judge` — conditions that run no policy are such;
* `Statement.runAll_cons`, `Statement.runAll_append` — programs through `thenIf`;
* `Context.ask_unlinked` — asking a policy that is not there.
-/

set_option autoImplicit false

namespace RoutePolicy

@[simp] theorem diagnosticsOf_append (ns ms : List Notice) :
    diagnosticsOf (ns ++ ms) = diagnosticsOf ns ++ diagnosticsOf ms :=
  List.filterMap_append

theorem diagnosticsOf_event (e : Event) (notices : List Notice) :
    diagnosticsOf (.event e :: notices) = diagnosticsOf notices := rfl

theorem diagnosticsOf_flatMap {α : Type} (f : α → List Notice) (as : List α) :
    diagnosticsOf (as.flatMap f) = as.flatMap fun a => diagnosticsOf (f a) := by
  induction as with
  | nil => rfl
  | cons a as ih => rw [List.flatMap_cons, diagnosticsOf_append, ih, List.flatMap_cons]

namespace Evaluation

variable {α β : Type}

instance : LawfulMonad Evaluation :=
  LawfulMonad.mk' Evaluation bind_pure pure_bind bind_assoc

theorem bind_apply (x : Evaluation α) (f : α → Evaluation β) (env : Environment) :
    (x >>= f) env = match x env with
      | ⟨notices, .ok (a, env')⟩ => ⟨notices ++ (f a env').notices, (f a env').result⟩
      | ⟨notices, .error e⟩ => ⟨notices, .error e⟩ := rfl

theorem map_apply (f : α → β) (x : Evaluation α) (env : Environment) :
    (f <$> x) env = match x env with
      | ⟨notices, .ok (a, env')⟩ => ⟨notices, .ok (f a, env')⟩
      | ⟨notices, .error e⟩ => ⟨notices, .error e⟩ := by
  rw [map_eq_pure_bind, bind_apply]
  rcases x env with ⟨notices, e | ⟨a, env'⟩⟩
  · rfl
  · exact congrArg (Outcome.mk · _) (List.append_nil notices)

theorem of_map_ok {f : α → β} {x : Evaluation α} {env after : Environment} {b : β}
    {notices : List Notice} (h : (f <$> x) env = ⟨notices, .ok (b, after)⟩) :
    ∃ a, x env = ⟨notices, .ok (a, after)⟩ ∧ f a = b := by
  rw [map_apply] at h
  rcases hrun : x env with ⟨notices', e | ⟨a, env'⟩⟩
  · rw [hrun] at h
    cases h
  · rw [hrun] at h
    cases h
    exact ⟨a, rfl, rfl⟩

theorem get_bind_apply (f : Environment → Evaluation α) (env : Environment) :
    (get >>= f) env = f env env := rfl

theorem pure_apply (a : α) (env : Environment) :
    (pure a : Evaluation α) env = ⟨[], .ok (a, env)⟩ := rfl

/-- The evaluation that fails. -/
def fail (e : MalformedPolicy) : Evaluation α := fun _ => ⟨[], .error e⟩

theorem write_eq (policy : String) (field : RouteField) (update : Update) :
    write policy field update = (do
      let env ← get
      match update.compute (env.route.get field) with
      | none => fail ⟨policy, .updateMisfit update field⟩
      | some value =>
        match env.route.write field value with
        | .error misfit => fail ⟨policy, .valueMisfit misfit⟩
        | .ok route => modify fun _ =>
          { env with route, overlay := env.overlay.set field value }) := by
  apply ext
  intro env
  simp only [bind_apply, get, write, List.nil_append]
  cases update.compute (env.route.get field) with
  | none => rfl
  | some value =>
    simp only
    cases env.route.write field value <;> rfl

/-! ## Evaluations without effects -/

/-- The evaluation only reads the environment: it reports nothing, changes nothing and does not
fail. -/
def Silent (x : Evaluation α) : Prop := ∀ env, ∃ a, x env = ⟨[], .ok (a, env)⟩

theorem Silent.pure (a : α) : Silent (pure a : Evaluation α) := fun _ => ⟨a, rfl⟩

theorem Silent.get : Silent get := fun env => ⟨env, rfl⟩

theorem Silent.bind {x : Evaluation α} {f : α → Evaluation β} (hx : Silent x)
    (hf : ∀ a, Silent (f a)) : Silent (x >>= f) := by
  intro env
  obtain ⟨a, ha⟩ := hx env
  obtain ⟨b, hb⟩ := hf a env
  exact ⟨b, by simp [bind_apply, ha, hb]⟩

/-- What a silent evaluation gives may be forgotten together with the evaluation. -/
theorem Silent.forget {x : Evaluation α} (hx : Silent x) (y : Evaluation β) :
    (x >>= fun _ => y) = y := by
  apply ext
  intro env
  obtain ⟨a, ha⟩ := hx env
  simp [bind_apply, ha]

/-! ## One program after the other -/

/-- First `x`, and then `y` where `x` gives `go`. -/
def thenIf [DecidableEq α] (x : Evaluation α) (go : α) (y : Evaluation α) : Evaluation α := do
  let a ← x
  if a = go then y else pure a

variable [DecidableEq α]

theorem pure_thenIf (go : α) (y : Evaluation α) : (pure go : Evaluation α).thenIf go y = y := by
  simp [thenIf]

theorem pure_thenIf_of_ne {a go : α} (h : a ≠ go) (y : Evaluation α) :
    (pure a : Evaluation α).thenIf go y = pure a := by
  simp [thenIf, h]

theorem thenIf_pure (x : Evaluation α) (go : α) : x.thenIf go (pure go) = x := by
  refine (bind_congr fun a => ?_).trans (bind_pure x)
  split
  · rename_i h
    rw [h]
  · rfl

theorem bind_thenIf (x : Evaluation β) (f : β → Evaluation α) (go : α) (y : Evaluation α) :
    (x >>= f).thenIf go y = x >>= fun b => (f b).thenIf go y := by
  simp only [thenIf, bind_assoc]

/-- A change of the environment that goes on is made before the rest. -/
theorem modify_thenIf_apply (f : Environment → Environment) (go : α) (y : Evaluation α)
    (env : Environment) : (modify f >>= fun _ => pure go).thenIf go y env = y (f env) := by
  rw [bind_thenIf]
  simp only [pure_thenIf, bind_apply, modify, List.nil_append]

theorem thenIf_assoc (x y z : Evaluation α) (go : α) :
    (x.thenIf go y).thenIf go z = x.thenIf go (y.thenIf go z) := by
  rw [thenIf.eq_1 x go y, bind_thenIf, thenIf.eq_1 x go]
  refine bind_congr fun a => ?_
  split
  · rfl
  · rename_i h
    exact pure_thenIf_of_ne h z

/-- A map that sends nothing else to the image of the value to go on with can be taken out. -/
theorem map_thenIf [DecidableEq β] {f : α → β} {go : α} (hf : ∀ a, f a = f go → a = go) (x y : Evaluation α) :
    f <$> x.thenIf go y = (f <$> x).thenIf (f go) (f <$> y) := by
  rw [map_eq_pure_bind (x := x), bind_thenIf, thenIf, map_bind]
  refine bind_congr fun a => ?_
  by_cases h : a = go
  · rw [if_pos h, h, pure_thenIf]
  · rw [if_neg h, pure_thenIf_of_ne (mt (hf a) h)]
    exact map_pure f a

end Evaluation

namespace Condition

variable (ctx : Context)

mutual

theorem silent_judge : (c : Condition) → c.invokesPolicies = false →
    Evaluation.Silent (c.judge ctx)
  | .literal b, _ => by
    rw [judge]
    exact .pure _
  | .test p, _ => by
    rw [judge]
    exact Evaluation.Silent.get.bind fun _ => .pure _
  | .not c, h => by
    rw [judge]
    exact (silent_judge c (by simpa [invokesPolicies] using h)).bind fun _ => .pure _
  | .all cs, h => by
    rw [judge]
    exact (silent_judgeEach cs (by simpa [invokesPolicies] using h)).bind fun _ => .pure _
  | .any cs, h => by
    rw [judge]
    exact (silent_judgeEach cs (by simpa [invokesPolicies] using h)).bind fun _ => .pure _
  | .firstMatch _, h => by simp [invokesPolicies] at h
  | .allMatch _, h => by simp [invokesPolicies] at h
  | .callPolicy _, h => by simp [invokesPolicies] at h
  | .inCall, _ => by
    rw [judge]
    exact .pure _

theorem silent_judgeEach : (cs : List Condition) → anyInvokes cs = false →
    Evaluation.Silent (judgeEach ctx cs)
  | [], _ => by
    rw [judgeEach]
    exact .pure _
  | c :: cs, h => by
    rw [anyInvokes, Bool.or_eq_false_iff] at h
    rw [judgeEach]
    exact (silent_judge c h.1).bind fun _ => (silent_judgeEach cs h.2).bind fun _ => .pure _

end

end Condition

namespace Statement

theorem runAll_nil (ctx : Context) : runAll ctx [] = pure .fallsThrough := by
  rw [runAll]

theorem runAll_cons (ctx : Context) (s : Statement) (ss : List Statement) :
    runAll ctx (s :: ss) = (run ctx s).thenIf .fallsThrough (runAll ctx ss) := by
  rw [runAll]
  refine bind_congr fun flow => ?_
  cases flow <;> rfl

theorem runAll_append (ctx : Context) (ss ts : List Statement) :
    runAll ctx (ss ++ ts) = (runAll ctx ss).thenIf .fallsThrough (runAll ctx ts) := by
  induction ss with
  | nil => rw [List.nil_append, runAll_nil, Evaluation.pure_thenIf]
  | cons s ss ih =>
    rw [List.cons_append, runAll_cons, ih, runAll_cons, Evaluation.thenIf_assoc]

end Statement

namespace Context

/-- A reference without a link gives no verdict and has no effect. -/
theorem ask_unlinked (ctx : Context) {r : Reference} (h : r.link = none) :
    ctx.ask r = pure .unmatched := by
  apply Evaluation.ext
  intro env
  simp [ask, visit, h, Evaluation.bind_apply, Evaluation.get, Evaluation.pure_apply]

/-- Asking depends on the link of a reference only. -/
theorem ask_congr (ctx : Context) {r s : Reference} (h : r.link = s.link) :
    ctx.ask r = ctx.ask s := by
  simp only [ask, visit, h]

end Context

end RoutePolicy
