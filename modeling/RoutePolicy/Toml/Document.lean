import RoutePolicy.Toml.Value

/-!
# Reading a TOML text

A text is a list of lines: headers, which say where the following values belong, and keys with
their values.  `Toml.read?` gives the data of a text.
-/

set_option autoImplicit false

namespace RoutePolicy

namespace Toml

/-- What was read so far: the tables, and the path of the table that a header opened last. -/
structure Document where
  root : Entries := []
  header : List String := []

namespace Document

/-- Writes a value into the table that was opened last. -/
def put (d : Document) (k : Key) (v : Json) : Option Document :=
  (within .implied (Toml.put k v) d.header .declared d.root).map fun root => { d with root }

/-- Opens the table of a header. -/
def declare (d : Document) (k : Key) : Option Document :=
  (openTable k d.root).map fun root => { root, header := k.names }

/-- Opens a new table in the list of a header. -/
def append (d : Document) (k : Key) : Option Document :=
  (appendTable k d.root).map fun root => { root, header := k.names }

/-- Reads a line that is not empty. -/
def line? (d : Document) : List Char → Option (Document × List Char)
  | '[' :: '[' :: cs => do
    let (key, cs) ← key? cs
    let cs ← mark? ']' cs
    let cs ← mark? ']' cs
    let rest ← endOfLine? cs
    let d ← d.append key
    return (d, rest)
  | '[' :: cs => do
    let (key, cs) ← key? cs
    let cs ← mark? ']' cs
    let rest ← endOfLine? cs
    let d ← d.declare key
    return (d, rest)
  | cs => do
    let (key, v, cs) ← pair? value? cs
    let rest ← endOfLine? cs
    let d ← d.put key v
    return (d, rest)

/-- Reads lines.  Every line takes at least one character, which bounds the number of steps. -/
def lines? : Nat → Document → List Char → Option Document
  | 0, _, _ => none
  | steps + 1, d, cs =>
    match skipSpaces cs with
    | [] => some d
    | c :: rest =>
      if c = '#' || c = '\n' || c = '\r' then (endOfLine? (c :: rest)).bind (lines? steps d)
      else do
        let (d, rest) ← d.line? (c :: rest)
        lines? steps d rest

end Document

/-- The text without a byte order mark. -/
def withoutMark : List Char → List Char
  | '\ufeff' :: cs => cs
  | cs => cs

/-- The data of a text. -/
def read? (text : String) : Option Json :=
  let cs := withoutMark text.toList
  (Document.lines? (cs.length + 1) {} cs).map fun d => .object (entriesToJson d.root)

end Toml

end RoutePolicy
