/-!
# JSON values

A number is an integer or a decimal; decimals are kept as they were written, because nothing in
this library computes with them.  The fields of an object keep their order.
-/

set_option autoImplicit false

namespace RoutePolicy

/-- A JSON value. -/
inductive Json where
  | null
  | bool (value : Bool)
  | int (value : Int)
  | decimal (text : String)
  | string (value : String)
  | array (items : List Json)
  | object (fields : List (String × Json))

namespace Json

/-- The value of a field in a list of fields. -/
def fieldIn (name : String) : List (String × Json) → Option Json
  | [] => none
  | (k, v) :: rest => if k = name then some v else fieldIn name rest

/-- The value of a field of an object. -/
def field? (name : String) : Json → Option Json
  | .object fields => fieldIn name fields
  | _ => none

/-- A list of fields with one field written; a field that is there already keeps its place. -/
def putField (name : String) (value : Json) : List (String × Json) → List (String × Json)
  | [] => [(name, value)]
  | (k, v) :: rest => if k = name then (k, value) :: rest else (k, v) :: putField name value rest

/-- A natural number. -/
def nat (n : Nat) : Json := .int n

/-- A list of texts. -/
def strings (l : List String) : Json := .array (l.map .string)

/-- A value that may be missing, as itself or as null. -/
def orNull {α : Type} (f : α → Json) : Option α → Json
  | some a => f a
  | none => .null

theorem sizeOf_fieldIn_lt {name : String} {fields : List (String × Json)} {v : Json}
    (h : fieldIn name fields = some v) : sizeOf v < sizeOf fields := by
  induction fields with
  | nil => simp [fieldIn] at h
  | cons e rest ih =>
    obtain ⟨k, w⟩ := e
    rw [fieldIn] at h
    split at h
    · simp only [Option.some.injEq] at h
      subst h
      simp only [List.cons.sizeOf_spec, Prod.mk.sizeOf_spec]
      omega
    · have := ih h
      simp only [List.cons.sizeOf_spec]
      omega

end Json

end RoutePolicy
