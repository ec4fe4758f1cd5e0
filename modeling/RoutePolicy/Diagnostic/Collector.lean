import RoutePolicy.Event

/-!
# Collecting diagnostics

A collector keeps each diagnostic once, in the order of first occurrence, and counts how often one
was recorded.  Two diagnostics are the same when policy, term and finding are.  The moment at which
a diagnostic was made is kept with it and tells nothing apart.

* `Stamped` — a diagnostic with its moment, in whatever way moments are told;
* `Collector.record`, `Collector.recordAll` — take in diagnostics;
* `Collector.absorb` — takes in the notices of a computation and gives the events of the log, in
  which each new diagnostic is an event of its own.
-/

set_option autoImplicit false

namespace RoutePolicy

/-- A diagnostic with the moment at which it was made. -/
structure Stamped (τ : Type) where
  diagnostic : Diagnostic
  moment : τ
  deriving DecidableEq, Repr

/-- The key of the diagnostic; the moment is no part of it. -/
def Stamped.key {τ : Type} (d : Stamped τ) : DiagnosticKey := d.diagnostic.key

/-- The diagnostics of one run, each once, the keys that were seen, and the number of records. -/
structure Collector (τ : Type) where
  entries : List (Stamped τ) := []
  seen : List DiagnosticKey := []
  recorded : Nat := 0
  deriving DecidableEq, Repr

namespace Collector

variable {τ : Type}

/-- The collector before anything is recorded. -/
def empty : Collector τ := {}

/-- The diagnostics, without their moments. -/
def diagnostics (c : Collector τ) : List Diagnostic := c.entries.map (·.diagnostic)

/-- The number of distinct diagnostics. -/
def size (c : Collector τ) : Nat := c.entries.length

/-- Whether nothing was recorded. -/
def isEmpty (c : Collector τ) : Bool := c.entries.isEmpty

/-- Whether a diagnostic was recorded before. -/
def contains (c : Collector τ) (d : Diagnostic) : Bool := decide (d.key ∈ c.seen)

/-- Records a diagnostic: counts it, and keeps it if its key was not seen before. -/
def record (c : Collector τ) (d : Stamped τ) : Collector τ :=
  let counted := { c with recorded := c.recorded + 1 }
  if c.contains d.diagnostic then counted
  else { counted with entries := c.entries ++ [d], seen := d.key :: c.seen }

/-- Records several diagnostics in order. -/
def recordAll (c : Collector τ) (ds : List (Stamped τ)) : Collector τ := ds.foldl record c

/-- Takes in notices, for which nobody tells the moment, and gives the events they amount to. -/
def absorb (c : Collector Unit) : List Notice → Collector Unit × List Event
  | [] => (c, [])
  | .event e :: rest =>
    let (c', events) := c.absorb rest
    (c', e :: events)
  | .diagnostic d :: rest =>
    let (c', events) := (c.record ⟨d, ()⟩).absorb rest
    (c', if c.contains d then events else .diagnosticRecorded d :: events)

theorem absorb_fst (c : Collector Unit) (ns : List Notice) :
    (c.absorb ns).1 = c.recordAll ((diagnosticsOf ns).map fun d => ⟨d, ()⟩) := by
  induction ns generalizing c with
  | nil => rfl
  | cons n rest ih =>
    cases n with
    | event e => exact ih c
    | diagnostic d => exact ih (c.record ⟨d, ()⟩)

end Collector

end RoutePolicy
