import RoutePolicy.Json.Basic

/-!
# Decoding data

Typed values are read from JSON values.  The same decoders read data that came from a
configuration file in another notation, which differs in a few liberties; a `Dialect` says which.

* `Json.choice?` — a value that is one of several alternatives: a name alone, or an object with
  the name as its only field;
* `Record` — the fields of a structure, given by name or by position;
* `required`, `defaulted`, `optional` — a field that must be there, that may be missing, and that
  may be missing or null;
* decoders of numbers in a range, texts and lists.
-/

set_option autoImplicit false

namespace RoutePolicy

/-- The liberties of a notation. -/
structure Dialect where
  /-- Whether a value may accompany an alternative that carries nothing. -/
  emptyPayload : Json → Bool
  /-- Whether an alternative with named fields refuses fields it does not know. -/
  closedAlternatives : Bool
  /-- Whether a structure given by position may have more items than fields. -/
  surplusItems : Bool

namespace Dialect

/-- JSON: null may accompany a bare alternative, and positions have to be exact. -/
def json : Dialect where
  emptyPayload
    | .null => true
    | _ => false
  closedAlternatives := false
  surplusItems := false

/-- TOML: an empty table or array may accompany a bare alternative, alternatives with named fields
are closed, and surplus items are ignored. -/
def toml : Dialect where
  emptyPayload
    | .array items => items.isEmpty
    | .object fields => fields.isEmpty
    | _ => false
  closedAlternatives := true
  surplusItems := true

end Dialect

namespace Json

/-- The name of an alternative and the value that accompanies it. -/
def choice? : Json → Option (String × Option Json)
  | .string name => some (name, none)
  | .object [(name, payload)] => some (name, some payload)
  | _ => none

/-- One of several alternatives that carry nothing. -/
def oneOf? {α : Type} (d : Dialect) (alternatives : List (String × α)) (v : Json) : Option α :=
  match v.choice? with
  | some (name, payload) =>
    if payload.all d.emptyPayload then (alternatives.find? (fun a => a.1 == name)).map (·.2)
    else none
  | none => none

/-- A truth value. -/
def bool? : Json → Option Bool
  | .bool b => some b
  | _ => none

/-- A text. -/
def string? : Json → Option String
  | .string s => some s
  | _ => none

/-- A natural number that is at most `limit`. -/
def natUpTo? (limit : Nat) : Json → Option Nat
  | .int (.ofNat n) => if n ≤ limit then some n else none
  | _ => none

/-- A number of 8 bits. -/
def uint8? (v : Json) : Option UInt8 := (v.natUpTo? 0xFF).map UInt8.ofNat

/-- A number of 16 bits. -/
def uint16? (v : Json) : Option UInt16 := (v.natUpTo? 0xFFFF).map UInt16.ofNat

/-- A number of 32 bits. -/
def uint32? (v : Json) : Option UInt32 := (v.natUpTo? 0xFFFFFFFF).map UInt32.ofNat

/-- A number of 64 bits, as a natural number. -/
def index? (v : Json) : Option Nat := v.natUpTo? 0xFFFFFFFFFFFFFFFF

/-- A list. -/
def list? {α : Type} (f : Json → Option α) : Json → Option (List α)
  | .array items => items.mapM f
  | _ => none

/-- An object with arbitrary names, as a list of entries. -/
def entries? {α : Type} (f : Json → Option α) : Json → Option (List (String × α))
  | .object fields => fields.mapM fun e => (f e.2).map fun a => (e.1, a)
  | _ => none

/-- A value that may be null. -/
def nullable? {α : Type} (f : Json → Option α) : Json → Option (Option α)
  | .null => some none
  | v => (f v).map some

end Json

/-- The fields of a structure, by name or by position. -/
inductive Record where
  | named (fields : List (String × Json))
  | positional (items : List Json)

namespace Record

/-- The fields of a structure with the given names, in the order of its declaration. -/
def of? (d : Dialect) (names : List String) : Json → Option Record
  | .object fields => some (.named fields)
  | .array items =>
    if d.surplusItems || items.length ≤ names.length then some (.positional items) else none
  | _ => none

/-- The fields of a structure that can be given by name alone. -/
def named? : Json → Option Record
  | .object fields => some (.named fields)
  | _ => none

/-- The value of the field with a name and a position. -/
def get? (r : Record) (position : Nat) (name : String) : Option Json :=
  match r with
  | .named fields => Json.fieldIn name fields
  | .positional items => items[position]?

/-- A field that must be there. -/
def required {α : Type} (r : Record) (position : Nat) (name : String) (f : Json → Option α) :
    Option α :=
  (r.get? position name).bind f

/-- A field that may be missing. -/
def defaulted {α : Type} (r : Record) (position : Nat) (name : String) (default : α)
    (f : Json → Option α) : Option α :=
  match r.get? position name with
  | some v => f v
  | none => some default

/-- A field that may be missing or null. -/
def optional {α : Type} (r : Record) (position : Nat) (name : String) (f : Json → Option α) :
    Option (Option α) :=
  r.defaulted position name none (Json.nullable? f)

/-- Whether there are no fields other than the given ones. -/
def hasOnly (names : List String) : Record → Bool
  | .named fields => fields.all fun e => names.contains e.1
  | .positional _ => true

end Record

end RoutePolicy
