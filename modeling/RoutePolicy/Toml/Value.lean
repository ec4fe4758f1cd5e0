import RoutePolicy.Toml.Number
import RoutePolicy.Toml.Tree

/-!
# Values of a TOML text

Strings, truth values, numbers and dates; arrays, which may run over several lines and hold
comments; and tables between braces, which may not.  Arrays and tables nest less than
`nestingLimit` deep.
-/

set_option autoImplicit false

namespace RoutePolicy

namespace Toml

/-- Reads a value that holds no other value. -/
def atom? : List Char → Option (Json × List Char)
  | 't' :: 'r' :: 'u' :: 'e' :: rest => some (.bool true, rest)
  | 'f' :: 'a' :: 'l' :: 's' :: 'e' :: rest => some (.bool false, rest)
  | cs => ((string? cs).map fun s => (.string s.1, s.2)).or (number? cs)

/-- Reads the items of an array and its closing bracket.  Every item takes at least one character,
which bounds the number of steps. -/
def items? (value? : List Char → Option (Json × List Char)) :
    Nat → List Char → Option (List Json × List Char)
  | 0, _ => none
  | steps + 1, cs =>
    match skipTrivia cs with
    | ']' :: rest => some ([], rest)
    | cs => do
      let (v, cs) ← value? cs
      match skipTrivia cs with
      | ',' :: rest =>
        let (vs, rest) ← items? value? steps rest
        return (v :: vs, rest)
      | ']' :: rest => return ([v], rest)
      | _ => none

/-- Reads a key and its value, with the blanks around them. -/
def pair? (value? : List Char → Option (Json × List Char)) (cs : List Char) :
    Option (Key × Json × List Char) := do
  let (key, cs) ← key? cs
  let cs ← mark? '=' cs
  let (v, cs) ← value? (skipSpaces cs)
  return (key, v, skipSpaces cs)

/-- Reads the entries of a table between braces and its closing brace. -/
def pairs? (value? : List Char → Option (Json × List Char)) :
    Nat → Entries → List Char → Option (Entries × List Char)
  | 0, _, _ => none
  | steps + 1, before, cs => do
    let (key, v, cs) ← pair? value? cs
    let entries ← put key v .declared before
    match cs with
    | ',' :: rest => pairs? value? steps entries rest
    | '}' :: rest => return (entries, rest)
    | _ => none

/-- Reads a value that may hold `depth` levels of arrays and tables. -/
def valueWithin? : Nat → List Char → Option (Json × List Char)
  | depth + 1, '[' :: rest => do
    let (vs, rest) ← items? (valueWithin? depth) (rest.length + 1) rest
    return (.array vs, rest)
  | depth + 1, '{' :: rest =>
    match skipSpaces rest with
    | '}' :: rest => some (.object [], rest)
    | cs => do
      let (entries, rest) ← pairs? (valueWithin? depth) (cs.length + 1) [] cs
      return (.object (entriesToJson entries), rest)
  | _, cs => atom? cs

/-- Reads a value. -/
def value? (cs : List Char) : Option (Json × List Char) := valueWithin? (nestingLimit - 1) cs

end Toml

end RoutePolicy
