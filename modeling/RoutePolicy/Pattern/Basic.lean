/-!
# Patterns

Regular expressions over the characters of a text.  There are no tables of Unicode properties, so
words, shorthand classes and the case of letters are known for ASCII alone, that is, where Unicode
is switched off; and where it is off, nothing may match a part of a character.

* `Pattern` — the syntax tree;
* `Pattern.depth` — how deep it is nested;
* `Pattern.isSupported` — whether texts can be matched with it.
-/

set_option autoImplicit false

namespace RoutePolicy

namespace Pattern

/-- The flags that a pattern sets or clears.  Those that tell where lines end, what a dot matches
and how greedy a repetition is are left out: every pattern is supported with them and without. -/
structure Flags where
  unicode : Option Bool := none
  ignoreCase : Option Bool := none
  ignoreBlank : Option Bool := none
  deriving DecidableEq, Repr

/-- A character.  One that is written with two hexadecimal digits is a byte where Unicode is off. -/
structure Symbol where
  char : Char
  isByte : Bool := false
  deriving DecidableEq, Repr

/-- A class of characters: the named ones and the shorthands may be negated, and so may brackets. -/
inductive CharacterSet where
  | empty
  | symbol (symbol : Symbol)
  | range (first last : Symbol)
  | named (negated : Bool)
  | shorthand (negated : Bool)
  | bracketed (negated : Bool) (set : CharacterSet)
  | union (sets : List CharacterSet)
  | operation (left right : CharacterSet)

/-- What a pattern is read under. -/
structure Mode where
  unicode : Bool := true
  ignoreCase : Bool := false
  deriving DecidableEq, Repr

/-- The mode after flags. -/
def Mode.change (m : Mode) (f : Flags) : Mode :=
  { unicode := f.unicode.getD m.unicode, ignoreCase := f.ignoreCase.getD m.ignoreCase }

end Pattern

/-- A regular expression. -/
inductive Pattern where
  | empty
  | flags (flags : Pattern.Flags)
  | symbol (symbol : Pattern.Symbol)
  | dot
  | boundary (ofWord : Bool)
  | set (set : Pattern.CharacterSet)
  | repeated (body : Pattern)
  | group (name : Option (List Char)) (flags : Pattern.Flags) (body : Pattern)
  | alternation (branches : List Pattern)
  | concatenation (parts : List Pattern)

namespace Pattern

/-! ## Nesting -/

/-- The greatest depth of a pattern. -/
def nestingLimit : Nat := 250

mutual

/-- How deep a class is nested. -/
def CharacterSet.depth : CharacterSet → Nat
  | .bracketed _ s => s.depth + 1
  | .union ss => CharacterSet.depths ss + 1
  | .operation l r => max l.depth r.depth + 1
  | _ => 0

/-- The depth of the deepest class. -/
def CharacterSet.depths : List CharacterSet → Nat
  | [] => 0
  | s :: ss => max s.depth (CharacterSet.depths ss)

end

mutual

/-- How deep a pattern is nested. -/
def depth : Pattern → Nat
  | .set s => s.depth
  | .repeated p => p.depth + 1
  | .group _ _ p => p.depth + 1
  | .alternation ps => depths ps + 1
  | .concatenation ps => depths ps + 1
  | _ => 0

/-- The depth of the deepest pattern. -/
def depths : List Pattern → Nat
  | [] => 0
  | p :: ps => max p.depth (depths ps)

end

/-! ## Names -/

mutual

/-- The names of groups. -/
def names : Pattern → List (List Char)
  | .repeated p => p.names
  | .group name _ p => name.toList ++ p.names
  | .alternation ps => namesOfAll ps
  | .concatenation ps => namesOfAll ps
  | _ => []

/-- The names of groups in several patterns. -/
def namesOfAll : List Pattern → List (List Char)
  | [] => []
  | p :: ps => p.names ++ namesOfAll ps

end

/-! ## Support -/

/-- Whether a character can be matched.  A byte outside ASCII is a part of a character. -/
def Symbol.isSupported (m : Mode) (s : Symbol) : Bool :=
  if m.unicode then !m.ignoreCase else !s.isByte || s.char.toNat < 128

/-- Whether a character can be in a class.  Without Unicode a class holds bytes. -/
def Symbol.isMember (m : Mode) (s : Symbol) : Bool :=
  if m.unicode then !m.ignoreCase else s.char.toNat < 128

mutual

/-- Whether a class can be matched.  Without Unicode the negation of a class holds bytes that are
parts of characters. -/
def CharacterSet.isSupported (m : Mode) : CharacterSet → Bool
  | .empty => true
  | .symbol s => s.isMember m
  | .range a b => a.isMember m && b.isMember m
  | .named negated => if m.unicode then !m.ignoreCase else !negated
  | .shorthand negated => !m.unicode && !negated
  | .bracketed negated s => (m.unicode || !negated) && s.isSupported m
  | .union ss => CharacterSet.areSupported m ss
  | .operation l r => l.isSupported m && r.isSupported m

/-- Whether all classes can be matched. -/
def CharacterSet.areSupported (m : Mode) : List CharacterSet → Bool
  | [] => true
  | s :: ss => s.isSupported m && CharacterSet.areSupported m ss

end

mutual

/-- The mode after a pattern, if texts can be matched with it.  A group ends the reach of flags that
are set in it. -/
def modeAfter? (m : Mode) : Pattern → Option Mode
  | .empty => some m
  | .flags f => some (m.change f)
  | .symbol s => if s.isSupported m then some m else none
  | .dot => if m.unicode then some m else none
  | .boundary ofWord => if ofWord && m.unicode then none else some m
  | .set s => if s.isSupported m then some m else none
  | .repeated p => p.modeAfter? m
  | .group _ f p => (p.modeAfter? (m.change f)).map fun _ => m
  | .alternation ps => modeAfterAll? m ps
  | .concatenation ps => modeAfterAll? m ps

/-- The mode after several patterns, if texts can be matched with them. -/
def modeAfterAll? (m : Mode) : List Pattern → Option Mode
  | [] => some m
  | p :: ps => (p.modeAfter? m).bind fun m => modeAfterAll? m ps

end

/-- Whether texts can be matched with a pattern. -/
def isSupported (p : Pattern) : Bool :=
  p.depth ≤ nestingLimit && p.names.Nodup && (p.modeAfter? {}).isSome

end Pattern

end RoutePolicy
