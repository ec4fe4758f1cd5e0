import RoutePolicy.Policy.Name
import RoutePolicy.Prefix.Range
import RoutePolicy.Route.Basic

/-!
# Conditions

What a policy can ask about a route: tests of single attributes, combined by the connectives, and
calls of other policies whose verdict counts as a truth value.

* `Predicate` and `Predicate.holds` — the tests;
* `Condition` — the combinations, and `Condition.invokesPolicies`, whether one can run a policy;
* `Condition.references` — the policies a condition names, in the order of their occurrence.
-/

set_option autoImplicit false

namespace RoutePolicy

/-- A test of an AS path: it contains an AS, ends with it, starts with it, or is empty. -/
inductive PathPattern where
  | contains (asn : UInt32)
  | originAs (asn : UInt32)
  | neighborAs (asn : UInt32)
  | empty
  deriving DecidableEq, Repr

/-- A test of a route. -/
inductive Predicate where
  | protocol (protocol : Protocol)
  | prefixIn (set : PrefixSet)
  | contributesTo (aggregate : Prefix)
  | asPath (pattern : PathPattern)
  | community (community : Community)
  | tag (value : UInt32)
  | localPreference (value : UInt32)
  | metric (value : UInt32)
  | sourceInterface (name : String)
  | sourceVrf (name : String)
  | addressFamily (family : AddressFamily)
  | color (value : UInt32)
  | unsupported (construct : String)
  deriving DecidableEq

/-- Whether a path has the form that a pattern asks for. -/
def PathPattern.holds (path : List UInt32) : PathPattern → Bool
  | .contains asn => path.contains asn
  | .originAs asn => path.getLast? == some asn
  | .neighborAs asn => path.head? == some asn
  | .empty => path.isEmpty

/-- Whether a route passes a test; a test that could not be expressed never passes. -/
def Predicate.holds (r : Route) : Predicate → Bool
  | .protocol p => p.covers r.protocol
  | .prefixIn set => set.contains r.network
  | .contributesTo aggregate => r.network.isMoreSpecificOf aggregate
  | .asPath pattern => pattern.holds r.asPath
  | .community c => decide (c ∈ r.communities)
  | .tag n => r.tag == n
  | .localPreference n => r.localPreference == n
  | .metric n => r.metric == n
  | .sourceInterface name => r.sourceInterface == some name
  | .sourceVrf name => r.sourceVrf == some name
  | .addressFamily family => r.addressFamily == family
  | .color n => r.color == some n
  | .unsupported _ => false

/-- A condition.  `firstMatch` calls policies until one gives a definite verdict, `allMatch`
calls policies as long as they match, and `inCall` tells whether a policy runs on behalf of
another one. -/
inductive Condition where
  | literal (value : Bool)
  | test (predicate : Predicate)
  | not (operand : Condition)
  | all (operands : List Condition)
  | any (operands : List Condition)
  | firstMatch (targets : List Reference)
  | allMatch (targets : List Reference)
  | callPolicy (target : Reference)
  | inCall

namespace Condition

mutual

/-- Whether two conditions are equal. -/
def beq : Condition → Condition → Bool
  | .literal a, .literal b => a == b
  | .test p, .test q => p == q
  | .not c, .not d => beq c d
  | .all cs, .all ds => beqList cs ds
  | .any cs, .any ds => beqList cs ds
  | .firstMatch rs, .firstMatch ss => rs == ss
  | .allMatch rs, .allMatch ss => rs == ss
  | .callPolicy r, .callPolicy s => r == s
  | .inCall, .inCall => true
  | _, _ => false

/-- Whether two lists of conditions are equal. -/
def beqList : List Condition → List Condition → Bool
  | [], [] => true
  | c :: cs, d :: ds => beq c d && beqList cs ds
  | _, _ => false

end

mutual

theorem beq_iff : (c d : Condition) → (beq c d = true ↔ c = d)
  | .literal a, d => by cases d <;> simp [beq]
  | .test p, d => by cases d <;> simp [beq]
  | .not c, d => by cases d <;> simp [beq, beq_iff c]
  | .all cs, d => by cases d <;> simp [beq, beqList_iff cs]
  | .any cs, d => by cases d <;> simp [beq, beqList_iff cs]
  | .firstMatch rs, d => by cases d <;> simp [beq]
  | .allMatch rs, d => by cases d <;> simp [beq]
  | .callPolicy r, d => by cases d <;> simp [beq]
  | .inCall, d => by cases d <;> simp [beq]

theorem beqList_iff : (cs ds : List Condition) → (beqList cs ds = true ↔ cs = ds)
  | [], ds => by cases ds <;> simp [beqList]
  | c :: cs, ds => by cases ds <;> simp [beqList, beq_iff c, beqList_iff cs]

end

instance : DecidableEq Condition := fun c d => decidable_of_iff _ (beq_iff c d)

mutual

/-- Whether evaluating the condition can run another policy. -/
def invokesPolicies : Condition → Bool
  | .literal _ | .test _ | .inCall => false
  | .not c => invokesPolicies c
  | .all cs => anyInvokes cs
  | .any cs => anyInvokes cs
  | .firstMatch _ | .allMatch _ | .callPolicy _ => true

/-- Whether one of several conditions can run another policy. -/
def anyInvokes : List Condition → Bool
  | [] => false
  | c :: cs => invokesPolicies c || anyInvokes cs

end

mutual

/-- The references in a condition, in the order of their occurrence. -/
def references : Condition → List Reference
  | .literal _ | .test _ | .inCall => []
  | .not c => references c
  | .all cs => referencesAll cs
  | .any cs => referencesAll cs
  | .firstMatch targets => targets
  | .allMatch targets => targets
  | .callPolicy target => [target]

/-- The references in several conditions. -/
def referencesAll : List Condition → List Reference
  | [] => []
  | c :: cs => references c ++ referencesAll cs

end

mutual

/-- The condition with every reference replaced. -/
def mapReferences (f : Reference → Reference) : Condition → Condition
  | .not c => .not (mapReferences f c)
  | .all cs => .all (mapReferencesAll f cs)
  | .any cs => .any (mapReferencesAll f cs)
  | .firstMatch targets => .firstMatch (targets.map f)
  | .allMatch targets => .allMatch (targets.map f)
  | .callPolicy target => .callPolicy (f target)
  | .literal b => .literal b
  | .test p => .test p
  | .inCall => .inCall

/-- Several conditions with every reference replaced. -/
def mapReferencesAll (f : Reference → Reference) : List Condition → List Condition
  | [] => []
  | c :: cs => mapReferences f c :: mapReferencesAll f cs

end

end Condition

end RoutePolicy
