import RoutePolicy.Registry.Basic

/-!
# Linking references

When a registry is frozen, every reference to a defined policy is linked to the place of that
policy.  Undefined references are reported, one `Notice` pair for each occurrence; calls, default
policies and members of a first-match chain that are undefined disappear, while the members of an
all-match chain and single calls inside conditions stay as they are.  Those that have no link never
match.
-/

set_option autoImplicit false

namespace RoutePolicy

/-- Where the policies of the given names are. -/
def placeOf (names : List String) (name : String) : Option PolicyId :=
  (names.findIdx? (· == name)).map PolicyId.mk

namespace Reference

/-- The linked reference, when the name is defined. -/
def link? (names : List String) (r : Reference) : Option Reference :=
  (placeOf names r.name).map r.linked

/-- The linked reference, or the reference itself, with the link that it has, when the name is
undefined. -/
def linkOrKeep (names : List String) (r : Reference) : Reference := (r.link? names).getD r

end Reference

namespace Condition

mutual

/-- The condition with its references linked. -/
def link (names : List String) : Condition → Condition
  | .not c => .not (link names c)
  | .all cs => .all (linkAll names cs)
  | .any cs => .any (linkAll names cs)
  | .firstMatch targets => .firstMatch (targets.filterMap (·.link? names))
  | .allMatch targets => .allMatch (targets.map (·.linkOrKeep names))
  | .callPolicy target => .callPolicy (target.linkOrKeep names)
  | .literal b => .literal b
  | .test p => .test p
  | .inCall => .inCall

/-- Several conditions with their references linked. -/
def linkAll (names : List String) : List Condition → List Condition
  | [] => []
  | c :: cs => link names c :: linkAll names cs

end

end Condition

namespace Statement

mutual

/-- The statement with its references linked; none when it has to be dropped. -/
def link? (names : List String) : Statement → Option Statement
  | .branch guard a b => some (.branch (guard.link names) (linkAll names a) (linkAll names b))
  | .call target => (target.link? names).map .call
  | .setDefaultPolicy target => (target.link? names).map .setDefaultPolicy
  | .write field update => some (.write field update)
  | .comment text => some (.comment text)
  | .control kind => some (.control kind)

/-- The statements that are left of a list, with their references linked. -/
def linkAll (names : List String) : List Statement → List Statement
  | [] => []
  | s :: ss =>
    match link? names s with
    | some s' => s' :: linkAll names ss
    | none => linkAll names ss

end

end Statement

/-- What is reported for an undefined reference in a policy. -/
def undefinedNotices (policy : String) (r : Reference) : List Notice :=
  [.event (.undefinedPolicyIgnored policy r.name),
   .diagnostic { policy, term := r.term, finding := .undefinedReference .policy r.name }]

namespace Policy

/-- The references of a policy that name no policy, in the order of their occurrence. -/
def dangling (names : List String) (p : Policy) : List Reference :=
  (Statement.referencesAll p.statements).filter (fun r => (placeOf names r.name).isNone)

/-- What is reported when a policy is linked. -/
def linkNotices (names : List String) (p : Policy) : List Notice :=
  (p.dangling names).flatMap (undefinedNotices p.name)

/-- The policy with its references linked and without sources. -/
def link (names : List String) (p : Policy) : Policy :=
  { p with statements := Statement.linkAll names p.statements, sources := .empty }

end Policy

end RoutePolicy
