import RoutePolicy.Event

/-!
# Filters for the log

A `LogFilter` says which events a log holds.  Each of its rules covers the events of some
components, or those that have some detail, and sets the least severe of them that is held.  Of the
rules that cover an event the most specific one decides, and without any the event is not held.

* `LogFilter.admits` — which events a log holds;
* `LogFilter.admits_uniform` — a filter with one rule for everything holds what is severe enough.
-/

set_option autoImplicit false

namespace RoutePolicy

namespace LogFilter

/-- A rule for the events of components whose names begin in one way, and with one detail; either
may be left open.  Without a limit the log holds none of them. -/
structure Rule where
  component : Option String := none
  detail : Option String := none
  limit : Option Severity
  deriving DecidableEq, Repr

namespace Rule

/-- Whether a rule is about an event of a component with these details. -/
def covers (r : Rule) (component : String) (details : List String) : Bool :=
  r.component.all (fun name => name.toList.isPrefixOf component.toList) &&
    r.detail.all details.contains

/-- Whether a rule gives way to a later one.  A longer beginning of the component's name prevails,
then a detail over none, and of two details the one that is not less in alphabetical order. -/
def yieldsTo (r s : Rule) : Bool :=
  let length (t : Rule) : Nat := t.component.elim 0 fun name => name.length + 1
  length r < length s || length r == length s && match r.detail, s.detail with
    | none, _ => true
    | some _, none => false
    | some a, some b => a ≤ b

/-- The rule that prevails over all others. -/
def prevailing? : List Rule → Option Rule
  | [] => none
  | r :: rest =>
    match prevailing? rest with
    | none => some r
    | some s => if r.yieldsTo s then some s else some r

theorem mem_of_prevailing? {rules : List Rule} {r : Rule} (h : prevailing? rules = some r) :
    r ∈ rules := by
  induction rules generalizing r with
  | nil => simp [prevailing?] at h
  | cons s rest ih =>
    rw [prevailing?] at h
    split at h
    · simp_all
    · rename_i t ht
      split at h <;> simp_all

end Rule

end LogFilter

/-- Which events a log holds. -/
structure LogFilter where
  rules : List LogFilter.Rule
  deriving DecidableEq, Repr

namespace LogFilter

/-- The filter with one limit for all events. -/
def uniform (limit : Option Severity) : LogFilter := ⟨[{ limit }]⟩

/-- Whether the log holds an event, where `nameOf` names the components. -/
def admits (f : LogFilter) (nameOf : Component → String) (e : Event) : Bool :=
  match Rule.prevailing? (f.rules.filter (·.covers (nameOf e.component) e.detailNames)) with
  | none => false
  | some r => r.limit.any (·.admits e.severity)

@[simp] theorem admits_uniform (limit : Option Severity) (nameOf : Component → String) (e : Event) :
    (uniform limit).admits nameOf e = limit.any (·.admits e.severity) := rfl

end LogFilter

end RoutePolicy
