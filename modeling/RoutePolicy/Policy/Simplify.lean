import RoutePolicy.Policy.Basic

/-!
# Simplification

`Policy.simplify` removes what cannot matter to any evaluation:

* comments, and statements after one that always ends its list;
* branches on a constant guard, which are replaced by the branch that is taken;
* branches without statements, unless their guard can run a policy;
* constants and nesting in guards.  Every operand of a connective is evaluated, so an operand that
  can run a policy stays even where a constant settles the outcome.
-/

set_option autoImplicit false

namespace RoutePolicy

namespace Condition

/-- The negation of a simplified condition. -/
def negate : Condition → Condition
  | .literal b => .literal (!b)
  | .not c => c
  | c => .not c

/-- The conjunction (`neutral = true`) or disjunction (`neutral = false`) of several operands. -/
def connective (neutral : Bool) (operands : List Condition) : Condition :=
  if neutral then .all operands else .any operands

/-- The operands a simplified operand contributes: a nested connective of the same kind
contributes its own. -/
def spread (neutral : Bool) : Condition → List Condition
  | .all cs => if neutral then cs else [.all cs]
  | .any cs => if neutral then [.any cs] else cs
  | c => [c]

/-- Whether a condition is a constant. -/
def isLiteral : Condition → Bool
  | .literal _ => true
  | _ => false

/-- The connective of simplified and spread operands.  A constant that differs from the neutral
one settles the outcome; then only operands that can run a policy stay in front of it. -/
def fold (neutral : Bool) (operands : List Condition) : Condition :=
  let settled := operands.contains (.literal (!neutral))
  let live := operands.filter (fun c => !c.isLiteral)
  let kept := if settled then live.filter invokesPolicies else live
  if settled then
    if kept.isEmpty then .literal (!neutral) else connective neutral (kept ++ [.literal (!neutral)])
  else
    match kept with
    | [] => .literal neutral
    | [c] => c
    | cs => connective neutral cs

mutual

/-- The simplified condition. -/
def simplify : Condition → Condition
  | .not c => negate (simplify c)
  | .all cs => fold true (simplifySpread true cs)
  | .any cs => fold false (simplifySpread false cs)
  | .firstMatch targets => if targets.isEmpty then .literal false else .firstMatch targets
  | .allMatch targets => if targets.isEmpty then .literal false else .allMatch targets
  | .literal b => .literal b
  | .test p => .test p
  | .callPolicy target => .callPolicy target
  | .inCall => .inCall

/-- The simplified operands of a connective, spread into one list. -/
def simplifySpread (neutral : Bool) : List Condition → List Condition
  | [] => []
  | c :: cs => spread neutral (simplify c) ++ simplifySpread neutral cs

end

end Condition

namespace Statement

mutual

/-- Whether the statement after this one can never be reached. -/
def alwaysEnds : Statement → Bool
  | .control kind => kind.endsList
  | .branch _ a b => someEnds a && someEnds b
  | .write _ _ | .setDefaultPolicy _ | .call _ | .comment _ => false

/-- Whether the end of a list can never be reached. -/
def someEnds : List Statement → Bool
  | [] => false
  | s :: ss => alwaysEnds s || someEnds ss

end

/-- The statements up to the first one that always ends the list. -/
def cutAfterEnd : List Statement → List Statement
  | [] => []
  | s :: ss => if s.alwaysEnds then [s] else s :: cutAfterEnd ss

/-- The statements that stand for a branch whose parts are simplified. -/
def simplifyBranch (guard : Condition) (a b : List Statement) : List Statement :=
  match guard with
  | .literal true => a
  | .literal false => b
  | guard => if a.isEmpty && b.isEmpty && !guard.invokesPolicies then [] else [.branch guard a b]

mutual

/-- The statements that stand for a statement. -/
def simplify : Statement → List Statement
  | .comment _ => []
  | .branch guard a b =>
    simplifyBranch guard.simplify (cutAfterEnd (simplifyEach a)) (cutAfterEnd (simplifyEach b))
  | .write field update => [.write field update]
  | .setDefaultPolicy target => [.setDefaultPolicy target]
  | .call target => [.call target]
  | .control kind => [.control kind]

/-- The statements that stand for the statements of a list. -/
def simplifyEach : List Statement → List Statement
  | [] => []
  | s :: ss => simplify s ++ simplifyEach ss

end

/-- The simplified list. -/
def simplifyAll (ss : List Statement) : List Statement := cutAfterEnd (simplifyEach ss)

end Statement

/-- The policy with a simplified program. -/
def Policy.simplify (p : Policy) : Policy :=
  { p with statements := Statement.simplifyAll p.statements }

end RoutePolicy
