import RoutePolicy.Prefix.Basic

/-!
# Length ranges and sets of prefixes

A `PrefixRange` selects the prefixes inside a base prefix whose length lies between two bounds; a
`PrefixSet` is a union of ranges, kept in the order in which they were given.

* `exact`, `orLonger`, `longer`, `upTo`, `lengthRange` — the kinds of range a filter can name;
* `PrefixSet.union` — appends the ranges of a second set that the first one lacks.
-/

set_option autoImplicit false

namespace RoutePolicy

/-- The prefixes inside `base` with a length from `minLength` to `maxLength`. -/
structure PrefixRange where
  base : Prefix
  minLength : UInt8
  maxLength : UInt8
  deriving DecidableEq

namespace PrefixRange

/-- Only the prefix itself. -/
def exact (p : Prefix) : PrefixRange := ⟨p, p.length, p.length⟩

/-- The prefix and everything inside it. -/
def orLonger (p : Prefix) : PrefixRange := ⟨p, p.length, 32⟩

/-- Everything inside the prefix except the prefix itself. -/
def longer (p : Prefix) : PrefixRange := ⟨p, p.length + 1, 32⟩

/-- The prefix and everything inside it up to a length. -/
def upTo (p : Prefix) (maxLength : UInt8) : PrefixRange := ⟨p, p.length, min maxLength 32⟩

/-- Everything inside the prefix with a length between two bounds. -/
def lengthRange (p : Prefix) (minLength maxLength : UInt8) : PrefixRange :=
  ⟨p, minLength, min maxLength 32⟩

/-- Whether a prefix is selected. -/
def selects (r : PrefixRange) (p : Prefix) : Bool :=
  r.base.contains p && r.minLength ≤ p.length && p.length ≤ r.maxLength

end PrefixRange

/-- A union of ranges. -/
structure PrefixSet where
  ranges : List PrefixRange
  deriving DecidableEq

namespace PrefixSet

/-- The set without members. -/
def empty : PrefixSet := ⟨[]⟩

/-- The set of one range. -/
def single (r : PrefixRange) : PrefixSet := ⟨[r]⟩

/-- The set of exactly the listed prefixes. -/
def ofPrefixes (ps : List Prefix) : PrefixSet := ⟨ps.map PrefixRange.exact⟩

/-- Whether some range selects the prefix. -/
def contains (s : PrefixSet) (p : Prefix) : Bool := s.ranges.any (·.selects p)

/-- The set with one more range, unless it is there already. -/
def add (s : PrefixSet) (r : PrefixRange) : PrefixSet :=
  if r ∈ s.ranges then s else ⟨s.ranges ++ [r]⟩

/-- The ranges of `s`, then those of `t` that are new. -/
def union (s t : PrefixSet) : PrefixSet := t.ranges.foldl add s

end PrefixSet

end RoutePolicy
