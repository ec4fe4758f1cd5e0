import RoutePolicy.Policy.Statement

/-!
# Policies

A policy is a named program.  `sources` lists the user policies that can reach it; it is filled in
when a registry is frozen and never affects an evaluation.
-/

set_option autoImplicit false

namespace RoutePolicy

/-- Who wrote a policy: a user, or a builder of derived policies. -/
inductive Authorship where
  | user
  | derived
  deriving DecidableEq, Repr

/-- A named program. -/
structure Policy where
  name : String
  statements : List Statement
  sources : SortedSet String := .empty
  origin : Authorship := .user
  deriving DecidableEq

namespace Policy

/-- A policy made by a builder. -/
def derived (name : String) (statements : List Statement) : Policy :=
  { name, statements, origin := .derived }

/-- Whether a builder made the policy. -/
def isDerived (p : Policy) : Bool := p.origin == .derived

/-- The policy with every reference replaced. -/
def mapReferences (f : Reference → Reference) (p : Policy) : Policy :=
  { p with statements := Statement.mapReferencesAll f p.statements }

/-- Whether two policies are equal up to the terms that their references came from. -/
def same (p q : Policy) : Bool :=
  p.mapReferences Reference.withoutTerm == q.mapReferences Reference.withoutTerm

end Policy

end RoutePolicy
