import RoutePolicy.Ordered.SortedMap
import RoutePolicy.Route.Basic

/-!
# Attribute writes collected over a route

An `Overlay` holds at most one write per field, in the order of the fields.  It is applied to a
copy of a route; the first write that does not fit stops it.
-/

set_option autoImplicit false

namespace RoutePolicy

/-- The writes of an evaluation, by field. -/
structure Overlay where
  writes : SortedMap RouteField AttributeValue
  deriving DecidableEq

namespace Overlay

/-- No writes. -/
def empty : Overlay := ⟨.empty⟩

/-- The write to a field. -/
def get? (o : Overlay) (field : RouteField) : Option AttributeValue := o.writes.find? field

/-- The overlay with a write added or replaced. -/
def set (o : Overlay) (field : RouteField) (value : AttributeValue) : Overlay :=
  ⟨o.writes.insert field value⟩

/-- The number of fields written. -/
def size (o : Overlay) : Nat := o.writes.size

/-- Whether nothing is written. -/
def isEmpty (o : Overlay) : Bool := o.writes.isEmpty

/-- The writes in the order of the fields. -/
def toList (o : Overlay) : List (RouteField × AttributeValue) := o.writes.entries

/-- Makes writes one after the other. -/
def writeAll : List (RouteField × AttributeValue) → Route → Except Misfit Route
  | [], r => .ok r
  | (field, value) :: rest, r =>
    match r.write field value with
    | .ok r' => writeAll rest r'
    | .error m => .error m

/-- The route with every write made. -/
def applyTo (o : Overlay) (r : Route) : Except Misfit Route := writeAll o.toList r

end Overlay

end RoutePolicy
