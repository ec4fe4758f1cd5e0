import RoutePolicy.Diagnostic.Basic
import RoutePolicy.Json.Decode

/-!
# Diagnostics as data

A diagnostic is written with its wording next to its parts.
-/

set_option autoImplicit false

namespace RoutePolicy

/-- The kind of an undefined name from data. -/
def ReferenceKind.ofJson? (v : Json) : Option ReferenceKind :=
  v.oneOf? .json ([policy, prefixList].map fun k => (k.name, k))

namespace Finding

/-- A finding as data: an object whose only field names its kind. -/
def toJson : Finding → Json
  | .undefinedReference kind name =>
    .object [("undefined_reference", .object [("kind", .string kind.name), ("name", .string name)])]
  | .unsupportedConstruct construct =>
    .object [("unsupported_construct", .object [("construct", .string construct)])]
  | .callCycle path => .object [("call_cycle", .object [("path", .strings path)])]
  | .callDepthExceeded depth => .object [("call_depth_exceeded", .object [("depth", .nat depth)])]

/-- A finding from data. -/
def ofJson? (v : Json) : Option Finding :=
  match v.choice? with
  | some ("undefined_reference", some v) => do
    let r ← Record.named? v
    let kind ← r.required 0 "kind" ReferenceKind.ofJson?
    let name ← r.required 1 "name" Json.string?
    return .undefinedReference kind name
  | some ("unsupported_construct", some v) => do
    let r ← Record.named? v
    let construct ← r.required 0 "construct" Json.string?
    return .unsupportedConstruct construct
  | some ("call_cycle", some v) => do
    let r ← Record.named? v
    let path ← r.required 0 "path" (·.list? Json.string?)
    return .callCycle path
  | some ("call_depth_exceeded", some v) => do
    let r ← Record.named? v
    let depth ← r.required 0 "depth" Json.index?
    return .callDepthExceeded depth
  | _ => none

end Finding

/-- A diagnostic as data, with its wording. -/
def Diagnostic.toJson (d : Diagnostic) : Json :=
  .object [("policy", .string d.policy), ("term", Json.orNull .nat d.term),
    ("kind", d.finding.toJson), ("text", .string d.message)]

/-- A diagnostic as data, without its wording. -/
def Diagnostic.toRecord (d : Diagnostic) : Json :=
  .object [("policy", .string d.policy), ("term", Json.orNull .nat d.term),
    ("kind", d.finding.toJson)]

end RoutePolicy
