import RoutePolicy.Codec.Route
import RoutePolicy.Evaluation.Decision

/-!
# Decisions as data
-/

set_option autoImplicit false

namespace RoutePolicy

/-- An action as data. -/
def Action.toJson (a : Action) : Json := .string a.name

/-- An action from data. -/
def Action.ofJson? (v : Json) : Option Action :=
  v.oneOf? .json ([accept, reject].map fun a => (a.name, a))

/-- A direction as data. -/
def Direction.toJson (d : Direction) : Json := .string d.name

/-- A direction from data. -/
def Direction.ofJson? (v : Json) : Option Direction :=
  v.oneOf? .json ([inbound, outbound, generation].map fun d => (d.name, d))

namespace Verdict

/-- A verdict as data. -/
def toJson : Verdict → Json
  | .matched b => .object [("Matched", .bool b)]
  | .unmatched => .string "Unmatched"

/-- A verdict from data. -/
def ofJson? (v : Json) : Option Verdict :=
  match v.choice? with
  | some ("Matched", some v) => v.bool?.map .matched
  | some ("Unmatched", payload) =>
    if payload.all Dialect.json.emptyPayload then some .unmatched else none
  | _ => none

end Verdict

namespace Decision

/-- A decision as data. -/
def toJson (d : Decision) : Json :=
  .object [("result", d.result.toJson), ("attributes", d.attributes.toJson)]

/-- A decision from data. -/
def ofJson? (v : Json) : Option Decision := do
  let r ← Record.of? .json ["result", "attributes"] v
  let result ← r.required 0 "result" Action.ofJson?
  let attributes ← r.required 1 "attributes" Overlay.ofJson?
  return { result, attributes }

end Decision

end RoutePolicy
