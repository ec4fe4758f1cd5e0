import RoutePolicy.Event
import RoutePolicy.Policy.Basic

/-!
# Computations of an evaluation

An evaluation threads an `Environment` through its steps, reports notices, and can fail on a
program whose write does not fit its field.  The notices that were reported before a failure are
kept.

* `Evaluation` — such a computation, as a monad;
* `Evaluation.write` — the only step that changes the working route.
-/

set_option autoImplicit false

namespace RoutePolicy

/-- What changes while policies run: the route with all writes made so far, the writes themselves,
the action on a route that nothing decides, and the policy that is asked before that. -/
structure Environment where
  route : Route
  overlay : Overlay := .empty
  defaultAction : Action
  defaultPolicy : Option PolicyId := none
  deriving DecidableEq

/-- Why a program is malformed. -/
inductive Malformation where
  | updateMisfit (update : Update) (field : RouteField)
  | valueMisfit (misfit : Misfit)
  deriving DecidableEq

/-- The wording of a malformation. -/
def Malformation.message : Malformation → String
  | .updateMisfit update field =>
    update.describe ++ " cannot be applied to field " ++ field.describe
  | .valueMisfit misfit => misfit.message

/-- A malformed program, with the policy that holds it. -/
structure MalformedPolicy where
  policy : String
  reason : Malformation
  deriving DecidableEq

/-- The wording of the failure. -/
def MalformedPolicy.message (m : MalformedPolicy) : String :=
  "malformed policy IR in '" ++ m.policy ++ "': " ++ m.reason.message

/-- The result of a computation and the notices it reported. -/
structure Outcome (α : Type) where
  notices : List Notice
  result : Except MalformedPolicy (α × Environment)

/-- A computation of an evaluation. -/
def Evaluation (α : Type) : Type := Environment → Outcome α

namespace Evaluation

variable {α β : Type}

/-- The computation that gives a value and changes nothing. -/
protected def pure (a : α) : Evaluation α := fun env => ⟨[], .ok (a, env)⟩

/-- One computation after the other, unless the first one fails. -/
protected def bind (x : Evaluation α) (f : α → Evaluation β) : Evaluation β := fun env =>
  match x env with
  | ⟨notices, .ok (a, env')⟩ =>
    let next := f a env'
    ⟨notices ++ next.notices, next.result⟩
  | ⟨notices, .error e⟩ => ⟨notices, .error e⟩

instance : Monad Evaluation where
  pure := Evaluation.pure
  bind := Evaluation.bind

/-- The environment. -/
def get : Evaluation Environment := fun env => ⟨[], .ok (env, env)⟩

/-- Changes the environment. -/
def modify (f : Environment → Environment) : Evaluation Unit := fun env => ⟨[], .ok ((), f env)⟩

/-- Reports notices. -/
def report (notices : List Notice) : Evaluation Unit := fun env => ⟨notices, .ok ((), env)⟩

theorem ext {x y : Evaluation α} (h : ∀ env, x env = y env) : x = y := funext h

theorem pure_bind (a : α) (f : α → Evaluation β) : (pure a >>= f : Evaluation β) = f a := by
  apply ext
  intro env
  show Evaluation.bind (Evaluation.pure a) f env = f a env
  simp [Evaluation.bind, Evaluation.pure]

theorem bind_pure (x : Evaluation α) : (x >>= pure : Evaluation α) = x := by
  apply ext
  intro env
  show Evaluation.bind x Evaluation.pure env = x env
  unfold Evaluation.bind
  split
  · next notices a env' h => rw [h]; simp [Evaluation.pure]
  · next notices e h => rw [h]

theorem bind_assoc {γ : Type} (x : Evaluation α) (f : α → Evaluation β) (g : β → Evaluation γ) :
    (x >>= f >>= g : Evaluation γ) = x >>= fun a => f a >>= g := by
  apply ext
  intro env
  show Evaluation.bind (Evaluation.bind x f) g env =
      Evaluation.bind x (fun a => Evaluation.bind (f a) g) env
  unfold Evaluation.bind
  rcases hx : x env with ⟨n1, (e | ⟨a, env1⟩)⟩
  · simp
  · rcases hf : f a env1 with ⟨n2, (e | ⟨b, env2⟩)⟩
    · simp [hf]
    · simp [hf]

/-- Makes a write of a policy: first the new value is computed, then the field is written. -/
def write (policy : String) (field : RouteField) (update : Update) : Evaluation Unit := fun env =>
  match update.compute (env.route.get field) with
  | none => ⟨[], .error ⟨policy, .updateMisfit update field⟩⟩
  | some value =>
    match env.route.write field value with
    | .error misfit => ⟨[], .error ⟨policy, .valueMisfit misfit⟩⟩
    | .ok route => ⟨[], .ok ((), { env with route, overlay := env.overlay.set field value })⟩

end Evaluation

end RoutePolicy
