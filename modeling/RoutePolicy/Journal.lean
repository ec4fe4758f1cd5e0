import RoutePolicy.Diagnostic.Report
import RoutePolicy.Failure
import RoutePolicy.Fingerprint

/-!
# Journaled work

A piece of work collects diagnostics, logs events, prints lines, and can fail.  Its `Journal` holds
all of that in the order in which it came about, also when the work fails.

* `Configuration.tabulate`, `Table.decide`, `reportOn` — the steps that work is made of.
-/

set_option autoImplicit false

namespace RoutePolicy

/-- What a piece of work puts out: an event for the log, a printed line, or a complaint. -/
inductive Output where
  | event (event : Event)
  | line (text : String)
  | complaint (text : String)
  deriving DecidableEq, Repr

/-- The events among outputs. -/
def eventsOf (output : List Output) : List Event :=
  output.filterMap fun
    | .event e => some e
    | _ => none

/-- The printed lines among outputs. -/
def linesOf (output : List Output) : List String :=
  output.filterMap fun
    | .line text => some text
    | _ => none

/-- The complaints among outputs. -/
def complaintsOf (output : List Output) : List String :=
  output.filterMap fun
    | .complaint text => some text
    | _ => none

/-- The diagnostics and the output of a piece of work.  A journal tells no moments. -/
structure Journal where
  collector : Collector Unit := .empty
  output : List Output := []
  deriving DecidableEq, Repr

/-- Work that keeps a journal. -/
abbrev Journaled : Type → Type := ExceptT Failure (StateM Journal)

namespace Journaled

/-- Puts something out. -/
def put (items : List Output) : Journaled Unit :=
  modify fun j => { j with output := j.output ++ items }

/-- Logs an event. -/
def log (e : Event) : Journaled Unit := put [.event e]

/-- Prints lines. -/
def print (texts : List String) : Journaled Unit := put (texts.map .line)

/-- Complains. -/
def complain (texts : List String) : Journaled Unit := put (texts.map .complaint)

/-- Takes in the notices of a computation. -/
def notice (notices : List Notice) : Journaled Unit :=
  modify fun j =>
    let (collector, events) := j.collector.absorb notices
    { collector, output := j.output ++ events.map .event }

/-- Takes in a computation that gives notices and can fail. -/
def absorb {α ε : Type} (failure : ε → Failure) (x : List Notice × Except ε α) : Journaled α := do
  notice x.1
  match x.2 with
  | .ok a => pure a
  | .error e => throw (failure e)

/-- Takes in a value or a failure. -/
def lift {α : Type} : Except Failure α → Journaled α
  | .ok a => pure a
  | .error e => throw e

/-- The result of the work and its journal, from the start. -/
def start {α : Type} (x : Journaled α) : Except Failure α × Journal := StateT.run x {}

end Journaled

/-- The table of a configuration. -/
def Configuration.tabulate (c : Configuration) : Journaled Table :=
  Journaled.absorb .definition c.convert

/-- The decision of a policy on a route. -/
def Table.decide (t : Table) (s : Settings) (policy : String) (r : Route) (d : Direction) :
    Journaled Decision :=
  Journaled.absorb .malformed (t.evaluate s policy r d)

/-- The report on the work so far, for a table. -/
def reportOn (t : Table) : Journaled Report := do
  let (event, report) := (← get).collector.report (some t.fingerprint)
  Journaled.log event
  pure report

end RoutePolicy
