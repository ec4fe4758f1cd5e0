/-!
# Policy names and references

Names that start with `~` are reserved for derived policies.  A `Reference` names a policy; in a
frozen table it is linked to the number of that policy.

* `derivedName` — the reserved name made of several parts;
* `Reference.same` — equality of references, which ignores the term they came from.
-/

set_option autoImplicit false

namespace RoutePolicy

/-- Whether a name belongs to derived policies. -/
def isReservedName (name : String) : Bool := name.toList.head? == some '~'

/-- The reserved name made of several parts. -/
def derivedName (parts : List String) : String := "~" ++ ":".intercalate parts ++ "~"

/-- The place of a policy in a frozen table. -/
structure PolicyId where
  index : Nat
  deriving DecidableEq, Repr

/-- A reference to a policy by name.  `link` is the place of the policy once it is known, and
`term` the term of the policy statement that the reference was compiled from. -/
structure Reference where
  name : String
  link : Option PolicyId := none
  term : Option Nat := none
  deriving DecidableEq, Repr

namespace Reference

/-- A reference that is neither linked nor attributed to a term. -/
def named (name : String) : Reference := { name }

/-- The same reference, attributed to a term. -/
def atTerm (r : Reference) (term : Nat) : Reference := { r with term := some term }

/-- The same reference, linked to a policy. -/
def linked (r : Reference) (id : PolicyId) : Reference := { r with link := some id }

/-- Whether two references have the same name and the same link. -/
def same (r s : Reference) : Bool := r.name == s.name && r.link == s.link

/-- The same reference, attributed to no term. -/
def withoutTerm (r : Reference) : Reference := { r with term := none }

/-- The references of a list that are not the same as an earlier one. -/
def distinct (rs : List Reference) : List Reference :=
  rs.foldl (fun seen r => if seen.any r.same then seen else seen ++ [r]) []

end Reference

end RoutePolicy
