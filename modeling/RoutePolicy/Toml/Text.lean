import RoutePolicy.Text.Hexadecimal
import RoutePolicy.Toml.Trivia

/-!
# Strings and keys of a TOML text

A basic string stands between quotes and knows escapes; a literal string stands between apostrophes
and does not.  Three marks instead of one make a string that may run over several lines.

* `string?` — a string of any kind;
* `Key`, `key?` — a key with the names before its dots.
-/

set_option autoImplicit false

namespace RoutePolicy

namespace Toml

/-- The character of an escape with one letter. -/
def letterEscape? : Char → Option Char
  | 'b' => some '\x08'
  | 'f' => some '\x0c'
  | 'n' => some '\n'
  | 'r' => some '\r'
  | 't' => some '\t'
  | '"' => some '"'
  | '\\' => some '\\'
  | _ => none

/-- The character with a code point, if it is one. -/
def scalar? (n : Nat) : Option Char := if n.isValidChar then some (Char.ofNat n) else none

/-- The character whose code point is given by the first `count` digits. -/
def codePoint? (count : Nat) (cs : List Char) : Option (Char × List Char) :=
  let digits := cs.take count
  if digits.length = count then
    ((Hexadecimal.number? digits).bind scalar?).map fun c => (c, cs.drop count)
  else none

/-- The character of an escape, after its backslash. -/
def escape? : List Char → Option (Char × List Char)
  | 'u' :: rest => codePoint? 4 rest
  | 'U' :: rest => codePoint? 8 rest
  | c :: rest => (letterEscape? c).map fun c => (c, rest)
  | [] => none

/-- The text after a line end that is escaped, and after the blanks and line ends that follow. -/
def continuation? (cs : List Char) : Option (List Char) := (newLine? (skipSpaces cs)).map skipLines

theorem length_escape?_lt {cs rest : List Char} {c : Char} (h : escape? cs = some (c, rest)) :
    rest.length < cs.length := by
  have drop (count : Nat) (cs : List Char) (h : codePoint? count cs = some (c, rest)) :
      rest.length ≤ cs.length := by
    unfold codePoint? at h
    simp only at h
    split at h
    · obtain ⟨x, _, hx⟩ := Option.map_eq_some_iff.mp h
      simp only [Prod.mk.injEq] at hx
      rw [← hx.2, List.length_drop]
      omega
    · cases h
  unfold escape? at h
  split at h
  · have := drop 4 _ h
    simp only [List.length_cons]
    omega
  · have := drop 8 _ h
    simp only [List.length_cons]
    omega
  · obtain ⟨x, _, hx⟩ := Option.map_eq_some_iff.mp h
    simp only [Prod.mk.injEq] at hx
    simp [← hx.2]
  · cases h

theorem length_continuation?_lt {cs rest : List Char} (h : continuation? cs = some rest) :
    rest.length < cs.length := by
  obtain ⟨x, hx, rfl⟩ := Option.map_eq_some_iff.mp h
  have h1 := length_newLine?_lt hx
  have h2 := length_skipSpaces_le cs
  have h3 := length_skipLines_le x
  omega

/-- Reads a basic string after its opening quote; `before` holds what was read, last first. -/
def basic? (before : List Char) : List Char → Option (String × List Char)
  | '"' :: rest => some (String.ofList before.reverse, rest)
  | '\\' :: rest =>
    match _h : escape? rest with
    | some (c, rest') => basic? (c :: before) rest'
    | none => none
  | c :: rest => if isText c then basic? (c :: before) rest else none
  | [] => none
termination_by cs => cs.length
decreasing_by
  · have := length_escape?_lt _h
    simp only [List.length_cons]
    omega
  · simp

/-- Reads a literal string after its opening apostrophe. -/
def literal? (before : List Char) : List Char → Option (String × List Char)
  | '\'' :: rest => some (String.ofList before.reverse, rest)
  | c :: rest => if isText c then literal? (c :: before) rest else none
  | [] => none

/-- Reads a basic string of several lines after its opening quotes.  Up to two quotes may stand
anywhere, also right before the closing ones. -/
def basicLines? (before : List Char) : List Char → Option (String × List Char)
  | '"' :: '"' :: '"' :: '"' :: '"' :: rest =>
    some (String.ofList ('"' :: '"' :: before).reverse, rest)
  | '"' :: '"' :: '"' :: '"' :: rest => some (String.ofList ('"' :: before).reverse, rest)
  | '"' :: '"' :: '"' :: rest => some (String.ofList before.reverse, rest)
  | '\\' :: rest =>
    match _h : continuation? rest with
    | some rest' => basicLines? before rest'
    | none =>
      match _h' : escape? rest with
      | some (c, rest') => basicLines? (c :: before) rest'
      | none => none
  | '\r' :: '\n' :: rest => basicLines? ('\n' :: before) rest
  | c :: rest => if isText c || c == '\n' then basicLines? (c :: before) rest else none
  | [] => none
termination_by cs => cs.length
decreasing_by
  · have := length_continuation?_lt _h
    simp only [List.length_cons]
    omega
  · have := length_escape?_lt _h'
    simp only [List.length_cons]
    omega
  · simp only [List.length_cons]
    omega
  · simp

/-- Reads a literal string of several lines after its opening apostrophes. -/
def literalLines? (before : List Char) : List Char → Option (String × List Char)
  | '\'' :: '\'' :: '\'' :: '\'' :: '\'' :: rest =>
    some (String.ofList ('\'' :: '\'' :: before).reverse, rest)
  | '\'' :: '\'' :: '\'' :: '\'' :: rest => some (String.ofList ('\'' :: before).reverse, rest)
  | '\'' :: '\'' :: '\'' :: rest => some (String.ofList before.reverse, rest)
  | '\r' :: '\n' :: rest => literalLines? ('\n' :: before) rest
  | c :: rest => if isText c || c == '\n' then literalLines? (c :: before) rest else none
  | [] => none

/-- The text without a line end at its start. -/
def dropNewLine (cs : List Char) : List Char := (newLine? cs).getD cs

/-- Reads a string of any kind. -/
def string? : List Char → Option (String × List Char)
  | '"' :: '"' :: '"' :: rest => basicLines? [] (dropNewLine rest)
  | '\'' :: '\'' :: '\'' :: rest => literalLines? [] (dropNewLine rest)
  | '"' :: rest => basic? [] rest
  | '\'' :: rest => literal? [] rest
  | _ => none

/-- Whether a character may stand in a name without marks. -/
def isBare (c : Char) : Bool := c.isAlphanum || c == '-' || c == '_'

/-- Reads one name of a key. -/
def name? : List Char → Option (String × List Char)
  | '"' :: rest => basic? [] rest
  | '\'' :: rest => literal? [] rest
  | cs =>
    match cs.span isBare with
    | ([], _) => none
    | (name, rest) => some (String.ofList name, rest)

/-- A key: a name, and the names of the tables that lead to it. -/
structure Key where
  path : List String
  name : String
  deriving DecidableEq, Repr

/-- All names of a key. -/
def Key.names (k : Key) : List String := k.path ++ [k.name]

/-- The nesting that is refused, both of values and of the names in a key. -/
def nestingLimit : Nat := 80

/-- Reads a key of at most `count` names, with the blanks around it. -/
def keyWithin? : Nat → List Char → Option (Key × List Char)
  | 0, _ => none
  | count + 1, cs => do
    let (name, cs) ← name? (skipSpaces cs)
    match skipSpaces cs with
    | '.' :: rest =>
      let (key, rest) ← keyWithin? count rest
      return (⟨name :: key.path, key.name⟩, rest)
    | rest => return (⟨[], name⟩, rest)

/-- Reads a key with the blanks around it. -/
def key? (cs : List Char) : Option (Key × List Char) := keyWithin? (nestingLimit - 1) cs

end Toml

end RoutePolicy
