import RoutePolicy.Diagnostic.Collector

/-!
# Reports

A report is what a collector held when it was exported, together with the fingerprint of the table
the diagnostics belong to.
-/

set_option autoImplicit false

namespace RoutePolicy

/-- How many findings of each kind a report lists. -/
structure FindingCounts where
  undefinedReferences : Nat
  unsupportedConstructs : Nat
  callCycles : Nat
  depthExceeded : Nat
  deriving DecidableEq, Repr

/-- Distinct diagnostics in the order of their first occurrence. -/
structure Report where
  diagnostics : List Diagnostic
  tableFingerprint : Option String := none
  deriving DecidableEq, Repr

namespace Report

/-- Whether there is nothing to report. -/
def isClean (r : Report) : Bool := r.diagnostics.isEmpty

/-- The number of diagnostics whose finding satisfies a test. -/
def count (r : Report) (p : Finding → Bool) : Nat := r.diagnostics.countP fun d => p d.finding

/-- The number of findings of each kind. -/
def counts (r : Report) : FindingCounts where
  undefinedReferences := r.count fun
    | .undefinedReference .. => true
    | _ => false
  unsupportedConstructs := r.count fun
    | .unsupportedConstruct .. => true
    | _ => false
  callCycles := r.count fun
    | .callCycle .. => true
    | _ => false
  depthExceeded := r.count fun
    | .callDepthExceeded .. => true
    | _ => false

/-- The diagnostics of one policy. -/
def forPolicy (r : Report) (policy : String) : List Diagnostic :=
  r.diagnostics.filter fun d => d.policy == policy

end Report

namespace Collector

/-- The report of what was recorded so far, and the event of its export. -/
def report {τ : Type} (c : Collector τ) (tableFingerprint : Option String) : Event × Report :=
  (.reportExported c.size c.recorded, { diagnostics := c.diagnostics, tableFingerprint })

end Collector

end RoutePolicy
