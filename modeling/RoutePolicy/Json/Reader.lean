import RoutePolicy.Json.Number
import RoutePolicy.Text.Hexadecimal

/-!
# Reading JSON

`Json.read?` reads a text that holds exactly one value.  Of several fields with one name the last
one counts.  Escapes have to denote characters, numbers have to be finite, and arrays and objects
may be nested less than `nestingLimit` deep.

The functions below take the number of steps they may make; twice the length of the text is
enough, because of two steps at least one takes a character.
-/

set_option autoImplicit false

namespace RoutePolicy

namespace Json

/-- The nesting at which a text is refused. -/
def nestingLimit : Nat := 128

/-- The text after blanks. -/
def skipBlank : List Char → List Char
  | c :: rest => if c = ' ' || c = '\n' || c = '\t' || c = '\r' then skipBlank rest else c :: rest
  | [] => []

/-- The character of an escape with one letter. -/
def simpleEscape? : Char → Option Char
  | '"' => some '"'
  | '\\' => some '\\'
  | '/' => some '/'
  | 'b' => some '\x08'
  | 'f' => some '\x0c'
  | 'n' => some '\n'
  | 'r' => some '\r'
  | 't' => some '\t'
  | _ => none

/-- Reads the rest of a string after its opening quote, into characters in reverse order. -/
def stringBody (acc : List Char) : List Char → Option (String × List Char)
  | '"' :: rest => some (String.ofList acc.reverse, rest)
  | '\\' :: 'u' :: a :: b :: c :: d :: rest =>
    match Hexadecimal.number? [a, b, c, d] with
    | none => none
    | some high =>
      if 0xD800 ≤ high ∧ high < 0xDC00 then
        match rest with
        | '\\' :: 'u' :: e :: f :: g :: h :: rest =>
          match Hexadecimal.number? [e, f, g, h] with
          | none => none
          | some low =>
            if 0xDC00 ≤ low ∧ low < 0xE000 then
              stringBody
                (Char.ofNat (0x10000 + (high - 0xD800) * 0x400 + (low - 0xDC00)) :: acc) rest
            else none
        | _ => none
      else if 0xDC00 ≤ high ∧ high < 0xE000 then none
      else stringBody (Char.ofNat high :: acc) rest
  | '\\' :: c :: rest =>
    match simpleEscape? c with
    | some c => stringBody (c :: acc) rest
    | none => none
  | c :: rest => if c.toNat < 32 then none else stringBody (c :: acc) rest
  | [] => none

mutual

/-- Reads a value that may hold `depth` levels of nesting. -/
def value (depth : Nat) : Nat → List Char → Option (Json × List Char)
  | 0, _ => none
  | steps + 1, cs =>
    match skipBlank cs with
    | 'n' :: 'u' :: 'l' :: 'l' :: rest => some (.null, rest)
    | 't' :: 'r' :: 'u' :: 'e' :: rest => some (.bool true, rest)
    | 'f' :: 'a' :: 'l' :: 's' :: 'e' :: rest => some (.bool false, rest)
    | '"' :: rest => (stringBody [] rest).map fun s => (.string s.1, s.2)
    | '-' :: rest => number true rest
    | '[' :: rest =>
      if depth ≤ 1 then none
      else match skipBlank rest with
        | ']' :: rest => some (.array [], rest)
        | rest => (items (depth - 1) steps rest).map fun r => (.array r.1, r.2)
    | '{' :: rest =>
      if depth ≤ 1 then none
      else match skipBlank rest with
        | '}' :: rest => some (.object [], rest)
        | rest => (fields (depth - 1) steps [] rest).map fun r => (.object r.1, r.2)
    | cs => number false cs

/-- Reads the items of an array and its closing bracket. -/
def items (depth : Nat) : Nat → List Char → Option (List Json × List Char)
  | 0, _ => none
  | steps + 1, cs =>
    match value depth steps cs with
    | none => none
    | some (v, rest) =>
      match skipBlank rest with
      | ',' :: rest => (items depth steps rest).map fun r => (v :: r.1, r.2)
      | ']' :: rest => some ([v], rest)
      | _ => none

/-- Reads the fields of an object and its closing brace, after fields that were read before. -/
def fields (depth : Nat) : Nat → List (String × Json) → List Char →
    Option (List (String × Json) × List Char)
  | 0, _, _ => none
  | steps + 1, before, cs =>
    match skipBlank cs with
    | '"' :: rest =>
      match stringBody [] rest with
      | none => none
      | some (k, rest) =>
        match skipBlank rest with
        | ':' :: rest =>
          match value depth steps rest with
          | none => none
          | some (v, rest) =>
            let now := putField k v before
            match skipBlank rest with
            | ',' :: rest => fields depth steps now rest
            | '}' :: rest => some (now, rest)
            | _ => none
        | _ => none
    | _ => none

end

/-- Reads a text that holds exactly one value. -/
def read? (text : String) : Option Json :=
  let cs := text.toList
  match value nestingLimit (2 * cs.length + 2) cs with
  | some (v, rest) => if (skipBlank rest).isEmpty then some v else none
  | none => none

end Json

end RoutePolicy
