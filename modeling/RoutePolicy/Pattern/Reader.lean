import RoutePolicy.Pattern.Basic
import RoutePolicy.Text.Alphanumeric
import RoutePolicy.Text.Blank
import RoutePolicy.Text.Hexadecimal

/-!
# Reading patterns

The text of a pattern is read from the left.  Where blanks are ignored, so are comments, which run
from `#` to the end of the line.  Counted repetition, classes by property and references to groups
are no part of the syntax.

* `Pattern.read?` — the pattern of a text.

The functions that read classes and groups take the number of steps they may make.  Every step takes
a character, so one more than the length of the text is enough.
-/

set_option autoImplicit false

namespace RoutePolicy

namespace Pattern

/-! ## Blanks and comments -/

/-- The text after blanks and comments, from inside a comment or from outside. -/
def afterBlank (comment : Bool) : List Char → List Char
  | [] => []
  | c :: rest =>
    if comment then afterBlank (c != '\n') rest
    else if isBlank c then afterBlank false rest
    else if c = '#' then afterBlank true rest
    else c :: rest

/-- The text from where reading goes on. -/
def skip (ignoreBlank : Bool) (cs : List Char) : List Char :=
  if ignoreBlank then afterBlank false cs else cs

/-- The character that decides about a hyphen before it: the next one, or where blanks are ignored
the next that is neither blank nor the start of a comment. -/
def following? (ignoreBlank : Bool) (cs : List Char) : Option Char :=
  if ignoreBlank then
    match cs.dropWhile isBlank with
    | '#' :: rest => (rest.dropWhile isBlank).head?
    | rest => rest.head?
  else cs.head?

/-! ## Escapes -/

/-- What an escape stands for. -/
inductive Escape where
  | symbol (symbol : Symbol)
  | shorthand (negated : Bool)
  | boundary (ofWord : Bool)

/-- Whether a character other than a letter or a digit stands for itself after a backslash. -/
def isEscapable (c : Char) : Bool := c.toNat < 128 && !c.isAlphanum && c != '<' && c != '>'

/-- Reads so many hexadecimal digits. -/
def readDigits? (ignoreBlank : Bool) : Nat → Nat → List Char → Option (Nat × List Char)
  | 0, code, cs => some (code, cs)
  | _ + 1, _, [] => none
  | n + 1, code, c :: rest =>
    (Hexadecimal.value? c).bind fun d =>
      readDigits? ignoreBlank n (code * 16 + d) (skip ignoreBlank rest)

/-- Reads an escape by the number of a character. -/
def readCode? (ignoreBlank isByte : Bool) (digits : Nat) (cs : List Char) :
    Option (Escape × List Char) := do
  let (code, rest) ← readDigits? ignoreBlank digits 0 (skip ignoreBlank cs)
  if code.isValidChar then some (.symbol { char := Char.ofNat code, isByte }, rest) else none

/-- Reads an escape after its backslash. -/
def readEscape? (ignoreBlank : Bool) : List Char → Option (Escape × List Char)
  | [] => none
  | 'x' :: rest => readCode? ignoreBlank true 2 rest
  | 'u' :: rest => readCode? ignoreBlank false 4 rest
  | 'U' :: rest => readCode? ignoreBlank false 8 rest
  | c :: rest =>
    let symbol (c : Char) : Option (Escape × List Char) := some (.symbol { char := c }, rest)
    match c with
    | 'a' => symbol '\x07'
    | 'f' => symbol '\x0c'
    | 't' => symbol '\t'
    | 'n' => symbol '\n'
    | 'r' => symbol '\r'
    | 'v' => symbol '\x0b'
    | 'd' | 's' | 'w' => some (.shorthand false, rest)
    | 'D' | 'S' | 'W' => some (.shorthand true, rest)
    | 'A' | 'z' => some (.boundary false, rest)
    | 'b' | 'B' | '<' | '>' => some (.boundary true, rest)
    | c => if isEscapable c then symbol c else none

/-! ## Classes -/

/-- The names of classes. -/
def classNames : List String :=
  ["alnum", "alpha", "ascii", "blank", "cntrl", "digit", "graph", "lower", "print", "punct",
    "space", "upper", "word", "xdigit"]

/-- Reads a class by name after its opening bracket. -/
def readNamed? : List Char → Option (Bool × List Char)
  | ':' :: cs =>
    let (negated, cs) := match cs with
      | '^' :: rest => (true, rest)
      | cs => (false, cs)
    match cs.dropWhile (· != ':') with
    | ':' :: ']' :: rest =>
      if classNames.contains (String.ofList (cs.takeWhile (· != ':'))) then some (negated, rest)
      else none
    | _ => none
  | _ => none

/-- Reads a member of a class, or the end of a range. -/
def readMember? (ignoreBlank : Bool) : List Char → Option (Escape × List Char)
  | [] => none
  | '\\' :: rest => readEscape? ignoreBlank rest
  | c :: rest => some (.symbol { char := c }, rest)

/-- Reads a member or a range of a class.  A hyphen before another one or before the closing bracket
is no range. -/
def readItem? (ignoreBlank : Bool) (cs : List Char) : Option (CharacterSet × List Char) := do
  let (first, rest) ← readMember? ignoreBlank cs
  let single (rest : List Char) : Option (CharacterSet × List Char) :=
    match first with
    | .symbol s => some (.symbol s, rest)
    | .shorthand negated => some (.shorthand negated, rest)
    | .boundary _ => none
  match skip ignoreBlank rest with
  | [] => none
  | '-' :: rest =>
    if following? ignoreBlank rest = some ']' ∨ following? ignoreBlank rest = some '-' then
      single ('-' :: rest)
    else
      let (last, rest) ← readMember? ignoreBlank (skip ignoreBlank rest)
      match first, last with
      | .symbol a, .symbol b => if a.char ≤ b.char then some (.range a b, rest) else none
      | _, _ => none
  | rest => single rest

/-- Reads hyphens that stand for themselves. -/
def readHyphens (ignoreBlank : Bool) : Nat → List Char → List CharacterSet × List Char
  | 0, cs => ([], cs)
  | steps + 1, cs =>
    match cs with
    | '-' :: rest =>
      let (hyphens, rest) := readHyphens ignoreBlank steps (skip ignoreBlank rest)
      (.symbol { char := '-' } :: hyphens, rest)
    | cs => ([], cs)

/-- Reads the start of a class after its opening bracket: whether it is negated, and the members
that stand for themselves only there. -/
def readOpening (ignoreBlank : Bool) (steps : Nat) (cs : List Char) :
    Bool × List CharacterSet × List Char :=
  let (negated, cs) := match skip ignoreBlank cs with
    | '^' :: rest => (true, skip ignoreBlank rest)
    | cs => (false, cs)
  match readHyphens ignoreBlank steps cs with
  | ([], ']' :: rest) => (negated, [.symbol { char := ']' }], rest)
  | (hyphens, rest) => (negated, hyphens.reverse, rest)

/-- The class of members that were read, the last one first. -/
def unionOf : List CharacterSet → CharacterSet
  | [] => .empty
  | [s] => s
  | sets => .union sets.reverse

/-- The class of an operation whose left side was read before, if there is one. -/
def combine (left : Option CharacterSet) (right : CharacterSet) : CharacterSet :=
  match left with
  | none => right
  | some l => .operation l right

/-- Reads the rest of a class and its closing bracket, after the left side of an operation and
members that were read before.  Operations are read from the left. -/
def readClass? (ignoreBlank : Bool) :
    Nat → Option CharacterSet → List CharacterSet → List Char → Option (CharacterSet × List Char)
  | 0, _, _, _ => none
  | steps + 1, left, members, cs =>
    match skip ignoreBlank cs with
    | [] => none
    | '[' :: rest =>
      match readNamed? rest with
      | some (negated, rest) => readClass? ignoreBlank steps left (.named negated :: members) rest
      | none =>
        let (negated, inner, rest) := readOpening ignoreBlank steps rest
        (readClass? ignoreBlank steps none inner rest).bind fun (body, rest) =>
          readClass? ignoreBlank steps left (.bracketed negated body :: members) rest
    | ']' :: rest => some (combine left (unionOf members), rest)
    | '&' :: '&' :: rest | '-' :: '-' :: rest | '~' :: '~' :: rest =>
      readClass? ignoreBlank steps (some (combine left (unionOf members))) [] rest
    | cs =>
      (readItem? ignoreBlank cs).bind fun (item, rest) =>
        readClass? ignoreBlank steps left (item :: members) rest

/-! ## Groups -/

/-- What follows an opening parenthesis: flags without a group, or the start of a group. -/
inductive Opening where
  | flags (flags : Flags)
  | group (name : Option (List Char)) (flags : Flags)

/-- The flags of their letters.  Letters after a hyphen clear flags; no letter may be repeated, and
something has to follow the hyphen. -/
def flags? (letters : List Char) : Option Flags :=
  if letters.all ['i', 'm', 's', 'U', 'u', 'R', 'x', '-'].contains && letters.Nodup
      && letters.getLast? != some '-' then
    let state (c : Char) : Option Bool :=
      if (letters.takeWhile (· != '-')).contains c then some true
      else if letters.contains c then some false
      else none
    some { unicode := state 'u', ignoreCase := state 'i', ignoreBlank := state 'x' }
  else none

/-- Whether the characters are the name of a group. -/
def isGroupName : List Char → Bool
  | [] => false
  | c :: rest =>
    (c == '_' || isAlphabetic c) &&
      rest.all fun d => isAlphanumeric d || ['_', '.', '[', ']'].contains d

/-- Reads the start of a group by name, which is ended by an angle bracket. -/
def readName? (cs : List Char) : Option (Opening × List Char) :=
  let name := cs.takeWhile (· != '>')
  match cs.drop name.length with
  | '>' :: rest => if isGroupName name then some (.group (some name) {}, rest) else none
  | _ => none

/-- Reads what follows an opening parenthesis, but for the contents of a group. -/
def readOpening? (ignoreBlank : Bool) (cs : List Char) : Option (Opening × List Char) :=
  match skip ignoreBlank cs with
  | '?' :: 'P' :: '<' :: rest | '?' :: '<' :: rest => readName? rest
  | '?' :: rest =>
    let letters := rest.takeWhile fun c => c != ':' && c != ')'
    match rest.drop letters.length with
    | ':' :: rest => (flags? letters).map fun f => (.group none f, rest)
    | ')' :: rest =>
      if letters.isEmpty then none else (flags? letters).map fun f => (.flags f, rest)
    | _ => none
  | rest => some (.group none {}, rest)

/-- The pattern of parts that were read, the last one first. -/
def concatenationOf : List Pattern → Pattern
  | [] => .empty
  | [p] => p
  | parts => .concatenation parts.reverse

/-- The pattern of branches that were read, the last one first. -/
def alternationOf : List Pattern → Pattern
  | [p] => p
  | branches => .alternation branches.reverse

/-- Whether a pattern can be repeated.  Flags cannot. -/
def isRepeatable : Pattern → Bool
  | .flags _ => false
  | _ => true

/-- The part that an escape is. -/
def Escape.part : Escape → Pattern
  | .symbol s => .symbol s
  | .shorthand negated => .set (.shorthand negated)
  | .boundary ofWord => .boundary ofWord

/-- Reads the rest of a group, up to its closing parenthesis or the end of the text, after branches
and after parts of the present branch that were read before. -/
def readGroup? :
    Bool → Nat → List Pattern → List Pattern → List Char → Option (Pattern × List Char)
  | _, 0, _, _, _ => none
  | ignoreBlank, steps + 1, branches, parts, cs =>
    match skip ignoreBlank cs with
    | [] => some (alternationOf (concatenationOf parts :: branches), [])
    | ')' :: rest => some (alternationOf (concatenationOf parts :: branches), ')' :: rest)
    | '|' :: rest => readGroup? ignoreBlank steps (concatenationOf parts :: branches) [] rest
    | '(' :: rest =>
      match readOpening? ignoreBlank rest with
      | none => none
      | some (.flags f, rest) =>
        readGroup? (f.ignoreBlank.getD ignoreBlank) steps branches (.flags f :: parts) rest
      | some (.group name f, rest) =>
        match readGroup? (f.ignoreBlank.getD ignoreBlank) steps [] [] rest with
        | some (body, ')' :: rest) =>
          readGroup? ignoreBlank steps branches (.group name f body :: parts) rest
        | _ => none
    | '[' :: rest =>
      let (negated, inner, rest) := readOpening ignoreBlank steps rest
      (readClass? ignoreBlank steps none inner rest).bind fun (body, rest) =>
        readGroup? ignoreBlank steps branches (.set (.bracketed negated body) :: parts) rest
    | '*' :: rest | '+' :: rest | '?' :: rest =>
      match parts with
      | [] => none
      | part :: before =>
        let rest := if rest.head? = some '?' then rest.drop 1 else rest
        if isRepeatable part then
          readGroup? ignoreBlank steps branches (.repeated part :: before) rest
        else none
    | '{' :: _ => none
    | '\\' :: rest =>
      (readEscape? ignoreBlank rest).bind fun (escape, rest) =>
        readGroup? ignoreBlank steps branches (escape.part :: parts) rest
    | '.' :: rest => readGroup? ignoreBlank steps branches (.dot :: parts) rest
    | '^' :: rest | '$' :: rest =>
      readGroup? ignoreBlank steps branches (.boundary false :: parts) rest
    | c :: rest => readGroup? ignoreBlank steps branches (.symbol { char := c } :: parts) rest

/-- Reads the pattern of a text. -/
def read? (text : List Char) : Option Pattern :=
  match readGroup? false (text.length + 1) [] [] text with
  | some (p, []) => some p
  | _ => none

example : read? ['a', '|', 'b', '*', '?', 'c'] =
    some (.alternation [.symbol ⟨'a', false⟩,
      .concatenation [.repeated (.symbol ⟨'b', false⟩), .symbol ⟨'c', false⟩]]) := by rfl

example : (read? ['(', 'a']).isNone ∧ (read? ['a', ')']).isNone := by decide

end Pattern

end RoutePolicy
