import RoutePolicy.Codec.Route
import RoutePolicy.Policy.Basic

/-!
# Policies as data

References are written by name alone, so links and terms do not survive a round trip.
-/

set_option autoImplicit false

namespace RoutePolicy

namespace Reference

/-- A reference as data. -/
def toJson (r : Reference) : Json := .string r.name

/-- A reference from data. -/
def ofJson? (v : Json) : Option Reference := v.string?.map Reference.named

end Reference

namespace PathPattern

/-- A pattern as data. -/
def toJson : PathPattern → Json
  | .contains n => .object [("contains", wordToJson n)]
  | .originAs n => .object [("origin_as", wordToJson n)]
  | .neighborAs n => .object [("neighbor_as", wordToJson n)]
  | .empty => .string "empty"

/-- A pattern from data. -/
def ofJson? (v : Json) : Option PathPattern :=
  match v.choice? with
  | some ("contains", some v) => v.uint32?.map .contains
  | some ("origin_as", some v) => v.uint32?.map .originAs
  | some ("neighbor_as", some v) => v.uint32?.map .neighborAs
  | some ("empty", payload) =>
    if payload.all Dialect.json.emptyPayload then some .empty else none
  | _ => none

end PathPattern

namespace Predicate

/-- A test as data. -/
def toJson : Predicate → Json
  | .protocol p => .object [("protocol", p.toJson)]
  | .prefixIn s => .object [("prefix_in", s.toJson)]
  | .contributesTo p => .object [("contributes_to", p.toJson)]
  | .asPath p => .object [("as_path", p.toJson)]
  | .community c => .object [("community", c.toJson)]
  | .tag n => .object [("tag", wordToJson n)]
  | .localPreference n => .object [("local_preference", wordToJson n)]
  | .metric n => .object [("metric", wordToJson n)]
  | .sourceInterface s => .object [("source_interface", .string s)]
  | .sourceVrf s => .object [("source_vrf", .string s)]
  | .addressFamily f => .object [("address_family", f.toJson)]
  | .color n => .object [("color", wordToJson n)]
  | .unsupported s => .object [("unsupported", .string s)]

/-- A test from data. -/
def ofJson? (v : Json) : Option Predicate :=
  match v.choice? with
  | some ("protocol", some v) => (Protocol.ofJson? .json v).map .protocol
  | some ("prefix_in", some v) => (PrefixSet.ofJson? v).map .prefixIn
  | some ("contributes_to", some v) => (Prefix.ofJson? v).map .contributesTo
  | some ("as_path", some v) => (PathPattern.ofJson? v).map .asPath
  | some ("community", some v) => (Community.ofJson? v).map .community
  | some ("tag", some v) => v.uint32?.map .tag
  | some ("local_preference", some v) => v.uint32?.map .localPreference
  | some ("metric", some v) => v.uint32?.map .metric
  | some ("source_interface", some v) => v.string?.map .sourceInterface
  | some ("source_vrf", some v) => v.string?.map .sourceVrf
  | some ("address_family", some v) => (AddressFamily.ofJson? .json v).map .addressFamily
  | some ("color", some v) => v.uint32?.map .color
  | some ("unsupported", some v) => v.string?.map .unsupported
  | _ => none

end Predicate

namespace Condition

/-- A list of references as data. -/
def referencesToJson (rs : List Reference) : Json := .array (rs.map Reference.toJson)

mutual

/-- A condition as data. -/
def toJson : Condition → Json
  | .literal b => .object [("literal", .bool b)]
  | .test p => .object [("match_attribute", p.toJson)]
  | .not c => .object [("not", toJson c)]
  | .all cs => .object [("conjunction", .array (toJsonEach cs))]
  | .any cs => .object [("disjunction", .array (toJsonEach cs))]
  | .firstMatch rs => .object [("first_match_chain", referencesToJson rs)]
  | .allMatch rs => .object [("conjunction_chain", referencesToJson rs)]
  | .callPolicy r => .object [("call_expr", r.toJson)]
  | .inCall => .string "in_call_context"

/-- Several conditions as data. -/
def toJsonEach : List Condition → List Json
  | [] => []
  | c :: cs => toJson c :: toJsonEach cs

end

/-- A condition that holds no other condition, from the name and the content of its data. -/
def leafOfJson? (name : String) (v : Json) : Option Condition :=
  match name with
  | "literal" => v.bool?.map .literal
  | "match_attribute" => (Predicate.ofJson? v).map .test
  | "first_match_chain" => (v.list? Reference.ofJson?).map .firstMatch
  | "conjunction_chain" => (v.list? Reference.ofJson?).map .allMatch
  | "call_expr" => (Reference.ofJson? v).map .callPolicy
  | "in_call_context" => if Dialect.json.emptyPayload v then some .inCall else none
  | _ => none

mutual

/-- A condition from data. -/
def ofJson? : Json → Option Condition
  | .string name => if name = "in_call_context" then some .inCall else none
  | .object [(name, v)] =>
    if name = "not" then (ofJson? v).map .not
    else if name = "conjunction" then (ofJsonArray? v).map .all
    else if name = "disjunction" then (ofJsonArray? v).map .any
    else leafOfJson? name v
  | _ => none

/-- The conditions of an array. -/
def ofJsonArray? : Json → Option (List Condition)
  | .array items => ofJsonEach? items
  | _ => none

/-- Several conditions from data. -/
def ofJsonEach? : List Json → Option (List Condition)
  | [] => some []
  | v :: vs => do
    let c ← ofJson? v
    let cs ← ofJsonEach? vs
    return c :: cs

end

end Condition

namespace Update

/-- An update as data. -/
def toJson : Update → Json
  | .assign v => .object [("literal", v.toJson)]
  | .addCommunities s => .object [("add_communities", s.toJson)]
  | .removeCommunities s => .object [("remove_communities", s.toJson)]
  | .increment n => .object [("increment", wordToJson n)]
  | .decrement n => .object [("decrement", wordToJson n)]
  | .prepend ns => .object [("prepend", wordsToJson ns)]

/-- An update from data. -/
def ofJson? (v : Json) : Option Update :=
  match v.choice? with
  | some ("literal", some v) => (AttributeValue.ofJson? v).map .assign
  | some ("add_communities", some v) => (CommunitySet.ofJson? v).map .addCommunities
  | some ("remove_communities", some v) => (CommunitySet.ofJson? v).map .removeCommunities
  | some ("increment", some v) => v.uint32?.map .increment
  | some ("decrement", some v) => v.uint32?.map .decrement
  | some ("prepend", some v) => (v.list? Json.uint32?).map .prepend
  | _ => none

end Update

namespace Control

/-- All control statements. -/
def all : List Control :=
  [.exitAccept, .exitReject, .returnTrue, .returnFalse, .returnUndecided, .defaultAccept,
    .defaultReject, .nextPolicy]

/-- The name of a control statement. -/
def name : Control → String
  | .exitAccept => "exit_accept"
  | .exitReject => "exit_reject"
  | .returnTrue => "return_true"
  | .returnFalse => "return_false"
  | .returnUndecided => "return"
  | .defaultAccept => "set_default_action_accept"
  | .defaultReject => "set_default_action_reject"
  | .nextPolicy => "next_policy"

/-- A control statement as data. -/
def toJson (c : Control) : Json := .string c.name

/-- A control statement from data. -/
def ofJson? (v : Json) : Option Control := v.oneOf? .json (all.map fun c => (c.name, c))

end Control

namespace Statement

mutual

/-- A statement as data. -/
def toJson : Statement → Json
  | .branch guard a b =>
    .object [("if", .object [("guard", guard.toJson), ("then_branch", .array (toJsonEach a)),
      ("else_branch", .array (toJsonEach b))])]
  | .write field update =>
    .object [("set_attribute", .object [("field", field.toJson), ("expr", update.toJson)])]
  | .setDefaultPolicy target =>
    .object [("set_default_policy", .object [("target", target.toJson)])]
  | .call target => .object [("call", .object [("target", target.toJson)])]
  | .comment text => .object [("comment", .object [("text", .string text)])]
  | .control kind => .object [("terminal", kind.toJson)]

/-- Several statements as data. -/
def toJsonEach : List Statement → List Json
  | [] => []
  | s :: ss => toJson s :: toJsonEach ss

end

/-- A statement that holds no other statement, from the name and the content of its data. -/
def leafOfJson? (name : String) (v : Json) : Option Statement :=
  match name with
  | "set_attribute" => do
    let r ← Record.named? v
    let field ← r.required 0 "field" RouteField.ofJson?
    let update ← r.required 1 "expr" Update.ofJson?
    return .write field update
  | "set_default_policy" => do
    let r ← Record.named? v
    let target ← r.required 0 "target" Reference.ofJson?
    return .setDefaultPolicy target
  | "call" => do
    let r ← Record.named? v
    let target ← r.required 0 "target" Reference.ofJson?
    return .call target
  | "comment" => do
    let r ← Record.named? v
    let text ← r.required 0 "text" Json.string?
    return .comment text
  | "terminal" => (Control.ofJson? v).map .control
  | _ => none

mutual

/-- A statement from data. -/
def ofJson? : Json → Option Statement
  | .object [(name, v)] =>
    if name = "if" then
      match v with
      | .object fields => do
        let guard ← (Json.fieldIn "guard" fields).bind Condition.ofJson?
        let a ← match _h : Json.fieldIn "then_branch" fields with
          | some v => ofJsonArray? v
          | none => some []
        let b ← match _h : Json.fieldIn "else_branch" fields with
          | some v => ofJsonArray? v
          | none => some []
        return .branch guard a b
      | _ => none
    else leafOfJson? name v
  | _ => none
termination_by v => sizeOf v
decreasing_by
  all_goals
    have := Json.sizeOf_fieldIn_lt _h
    simp only [Json.object.sizeOf_spec, List.cons.sizeOf_spec, Prod.mk.sizeOf_spec]
    omega

/-- The statements of an array. -/
def ofJsonArray? : Json → Option (List Statement)
  | .array items => ofJsonEach? items
  | _ => none
termination_by v => sizeOf v

/-- Several statements from data. -/
def ofJsonEach? : List Json → Option (List Statement)
  | [] => some []
  | v :: vs => do
    let s ← ofJson? v
    let ss ← ofJsonEach? vs
    return s :: ss
termination_by vs => sizeOf vs

end

end Statement

namespace Authorship

/-- The name of an authorship. -/
def name : Authorship → String
  | .user => "user"
  | .derived => "derived"

/-- An authorship from data. -/
def ofJson? (v : Json) : Option Authorship :=
  v.oneOf? .json ([user, derived].map fun o => (o.name, o))

end Authorship

namespace Policy

/-- A policy as data. -/
def toJson (p : Policy) : Json :=
  .object [("name", .string p.name), ("statements", .array (Statement.toJsonEach p.statements)),
    ("sources", .strings p.sources.toList), ("origin", .string p.origin.name)]

/-- A policy from data. -/
def ofJson? (v : Json) : Option Policy := do
  let r ← Record.of? .json ["name", "statements", "sources", "origin"] v
  let name ← r.required 0 "name" Json.string?
  let statements ← r.required 1 "statements" Statement.ofJsonArray?
  let sources ← r.defaulted 2 "sources" .empty fun v => (v.list? Json.string?).map SortedSet.ofList
  let origin ← r.defaulted 3 "origin" .user Authorship.ofJson?
  return { name, statements, sources, origin }

end Policy

end RoutePolicy
