import RoutePolicy.Policy.Condition

/-!
# Statements

The program of a policy is a list of statements: branches on a condition, attribute writes, calls
of other policies, and control statements.

* `Update` — the right-hand side of a write, and `Update.compute`, the value it writes;
* `Control` — the statements that end a list or set the default action;
* `Statement`, with `references` and `mapReferences` as for conditions.
-/

set_option autoImplicit false

namespace RoutePolicy

/-- How the new value of an attribute follows from the current one.  Arithmetic stops at the ends
of the range. -/
inductive Update where
  | assign (value : AttributeValue)
  | addCommunities (added : CommunitySet)
  | removeCommunities (removed : CommunitySet)
  | increment (amount : UInt32)
  | decrement (amount : UInt32)
  | prepend (asns : List UInt32)
  deriving DecidableEq

/-- An update in messages. -/
def Update.describe : Update → String
  | .assign v => "Literal(" ++ v.describe ++ ")"
  | .addCommunities s => "AddCommunities(" ++ describeCommunities s ++ ")"
  | .removeCommunities s => "RemoveCommunities(" ++ describeCommunities s ++ ")"
  | .increment n => "Increment(" ++ Decimal.text n.toNat ++ ")"
  | .decrement n => "Decrement(" ++ Decimal.text n.toNat ++ ")"
  | .prepend asns => "Prepend(" ++ describeNumbers asns ++ ")"

/-- The sum, or the largest word when the sum is larger. -/
def saturatingAdd (a b : UInt32) : UInt32 := if a ≤ 0xFFFFFFFF - b then a + b else 0xFFFFFFFF

/-- The difference, or zero when it is negative. -/
def saturatingSub (a b : UInt32) : UInt32 := if b ≤ a then a - b else 0

/-- The value an update gives, from the current one; none when it does not apply to it. -/
def Update.compute (current : AttributeValue) (u : Update) : Option AttributeValue :=
  match u, current with
  | .assign value, _ => some value
  | .addCommunities added, .communities s => some (.communities (s.union added))
  | .removeCommunities removed, .communities s => some (.communities (s.diff removed))
  | .increment n, .number v => some (.number (saturatingAdd v n))
  | .decrement n, .number v => some (.number (saturatingSub v n))
  | .prepend asns, .asPath path => some (.asPath (asns ++ path))
  | _, _ => none

/-- A control statement. -/
inductive Control where
  | exitAccept
  | exitReject
  | returnTrue
  | returnFalse
  | returnUndecided
  | defaultAccept
  | defaultReject
  | nextPolicy
  deriving DecidableEq, Repr

/-- Whether the statements after this one in the same list are unreachable. -/
def Control.endsList : Control → Bool
  | .defaultAccept | .defaultReject => false
  | _ => true

/-- A statement. -/
inductive Statement where
  | branch (guard : Condition) (thenBranch elseBranch : List Statement)
  | write (field : RouteField) (update : Update)
  | setDefaultPolicy (target : Reference)
  | call (target : Reference)
  | comment (text : String)
  | control (kind : Control)

namespace Statement

/-- A branch without statements for the case that the guard fails. -/
def guarded (guard : Condition) (body : List Statement) : Statement := .branch guard body []

/-- A write of a fixed value. -/
def set (field : RouteField) (value : AttributeValue) : Statement := .write field (.assign value)

mutual

/-- Whether two statements are equal. -/
def beq : Statement → Statement → Bool
  | .branch g a b, .branch h c d => g == h && beqList a c && beqList b d
  | .write f u, .write g v => f == g && u == v
  | .setDefaultPolicy r, .setDefaultPolicy s => r == s
  | .call r, .call s => r == s
  | .comment a, .comment b => a == b
  | .control a, .control b => a == b
  | _, _ => false

/-- Whether two lists of statements are equal. -/
def beqList : List Statement → List Statement → Bool
  | [], [] => true
  | s :: ss, t :: ts => beq s t && beqList ss ts
  | _, _ => false

end

mutual

theorem beq_iff : (s t : Statement) → (beq s t = true ↔ s = t)
  | .branch g a b, t => by
    cases t <;> simp [beq, beqList_iff a, beqList_iff b, and_assoc]
  | .write f u, t => by cases t <;> simp [beq]
  | .setDefaultPolicy r, t => by cases t <;> simp [beq]
  | .call r, t => by cases t <;> simp [beq]
  | .comment a, t => by cases t <;> simp [beq]
  | .control a, t => by cases t <;> simp [beq]

theorem beqList_iff : (ss ts : List Statement) → (beqList ss ts = true ↔ ss = ts)
  | [], ts => by cases ts <;> simp [beqList]
  | s :: ss, ts => by cases ts <;> simp [beqList, beq_iff s, beqList_iff ss]

end

instance : DecidableEq Statement := fun s t => decidable_of_iff _ (beq_iff s t)

mutual

/-- The references in a statement, in the order of their occurrence. -/
def references : Statement → List Reference
  | .branch guard a b => guard.references ++ referencesAll a ++ referencesAll b
  | .setDefaultPolicy target => [target]
  | .call target => [target]
  | .write _ _ | .comment _ | .control _ => []

/-- The references in several statements. -/
def referencesAll : List Statement → List Reference
  | [] => []
  | s :: ss => references s ++ referencesAll ss

end

mutual

/-- The statement with every reference replaced. -/
def mapReferences (f : Reference → Reference) : Statement → Statement
  | .branch guard a b =>
    .branch (guard.mapReferences f) (mapReferencesAll f a) (mapReferencesAll f b)
  | .setDefaultPolicy target => .setDefaultPolicy (f target)
  | .call target => .call (f target)
  | .write field update => .write field update
  | .comment text => .comment text
  | .control kind => .control kind

/-- Several statements with every reference replaced. -/
def mapReferencesAll (f : Reference → Reference) : List Statement → List Statement
  | [] => []
  | s :: ss => mapReferences f s :: mapReferencesAll f ss

end

end Statement

end RoutePolicy
