import RoutePolicy.Event

/-!
# Passes that report

A pass over a program or a configuration gives a value and reports what it finds on the way.

* `Lowering`, `Lowering.report` — such passes;
* `Lowering.Yields` — the value and the notices of a pass, for passes one after the other and over
  the elements of a list.
-/

set_option autoImplicit false

namespace RoutePolicy

/-- A pass that reports while it runs. -/
abbrev Lowering := StateM (List Notice)

namespace Lowering

/-- Reports notices behind those that are there. -/
def report (notices : List Notice) : Lowering Unit := modify (· ++ notices)

variable {α β : Type}

/-- The pass gives the value and reports the notices, whatever was reported before. -/
def Yields (x : Lowering α) (a : α) (notices : List Notice) : Prop :=
  ∀ seen, x.run seen = (a, seen ++ notices)

namespace Yields

variable {x : Lowering α} {a : α} {b : β} {notices notices' : List Notice}

protected theorem pure (a : α) : Yields (pure a) a [] := by
  intro seen
  rw [List.append_nil]
  rfl

protected theorem report (notices : List Notice) : Yields (report notices) () notices :=
  fun _ => rfl

protected theorem bind {f : α → Lowering β} (hx : Yields x a notices)
    (hf : Yields (f a) b notices') : Yields (x >>= f) b (notices ++ notices') := by
  intro seen
  rw [StateT.run_bind, hx, ← List.append_assoc]
  exact hf (seen ++ notices)

/-- A pass whose value is used without any further report. -/
theorem andReturn (f : α → β) (hx : Yields x a notices) :
    Yields (x >>= fun a => Pure.pure (f a)) (f a) notices := by
  intro seen
  rw [StateT.run_bind, hx]
  rfl

/-- A pass over a list reports about its elements in order. -/
protected theorem mapM {f : α → Lowering β} {value : α → β} {found : α → List Notice} {as : List α}
    (h : ∀ a ∈ as, Yields (f a) (value a) (found a)) :
    Yields (as.mapM f) (as.map value) (as.flatMap found) := by
  induction as with
  | nil => exact .pure []
  | cons a as ih =>
    obtain ⟨ha, has⟩ := List.forall_mem_cons.mp h
    rw [List.mapM_cons, List.flatMap_cons]
    exact ha.bind ((ih has).andReturn (value a :: ·))

end Yields

end Lowering

end RoutePolicy
