import RoutePolicy.Policy.Simplify

/-!
# The size of programs

Simplification drops statements and conditions, and adds a condition only where one settles the
outcome of a connective: the constant goes behind the other operands, among which it was before.

* `Condition.size`, `Statement.weight` — the number of nodes of a condition and of a statement,
  which counts statements and conditions at given weights;
* `Condition.size_simplify_le`, `Statement.weightAll_simplifyAll_le` — simplified, they do not have
  more.
-/

set_option autoImplicit false

namespace RoutePolicy

namespace Condition

mutual

/-- The number of conditions that a condition is made of, itself included. -/
def size : Condition → Nat
  | .not c => size c + 1
  | .all cs => sizeAll cs + 1
  | .any cs => sizeAll cs + 1
  | .literal _ | .test _ | .firstMatch _ | .allMatch _ | .callPolicy _ | .inCall => 1

/-- The number of conditions that several conditions are made of. -/
def sizeAll : List Condition → Nat
  | [] => 0
  | c :: cs => size c + sizeAll cs

end

theorem size_connective (neutral : Bool) (cs : List Condition) :
    (connective neutral cs).size = sizeAll cs + 1 := by
  cases neutral <;> rfl

theorem sizeAll_append (cs ds : List Condition) :
    sizeAll (cs ++ ds) = sizeAll cs + sizeAll ds := by
  induction cs with
  | nil => rw [List.nil_append, sizeAll, Nat.zero_add]
  | cons c cs ih => rw [List.cons_append, sizeAll, sizeAll, ih, Nat.add_assoc]

theorem sizeAll_filter_le (p : Condition → Bool) (cs : List Condition) :
    sizeAll (cs.filter p) ≤ sizeAll cs := by
  induction cs with
  | nil => exact Nat.le_refl _
  | cons c cs ih =>
    rw [List.filter_cons]
    split
    · rw [sizeAll, sizeAll]
      omega
    · rw [sizeAll]
      omega

/-- What a filter drops makes room. -/
theorem sizeAll_filter_add_le {p : Condition → Bool} {c : Condition} {cs : List Condition}
    (hc : c ∈ cs) (hp : p c = false) : sizeAll (cs.filter p) + c.size ≤ sizeAll cs := by
  induction cs with
  | nil => cases hc
  | cons d cs ih =>
    rw [sizeAll]
    rcases List.mem_cons.mp hc with rfl | hc
    · have hle := sizeAll_filter_le p cs
      rw [List.filter_cons_of_neg (by rw [hp]; exact Bool.false_ne_true)]
      omega
    · have hle := ih hc
      rw [List.filter_cons]
      split
      · rw [sizeAll]
        omega
      · omega

theorem size_negate_le (c : Condition) : (negate c).size ≤ c.size + 1 := by
  cases c <;> simp only [negate, size] <;> omega

theorem sizeAll_spread_le (neutral : Bool) (c : Condition) :
    sizeAll (spread neutral c) ≤ c.size := by
  cases c <;> cases neutral <;> simp [spread, sizeAll, size]

theorem size_fold_le (neutral : Bool) (cs : List Condition) :
    (fold neutral cs).size ≤ sizeAll cs + 1 := by
  have hlive := sizeAll_filter_le (fun c => !c.isLiteral) cs
  unfold fold
  simp only
  split
  · rename_i hsettled
    have hmem : .literal (!neutral) ∈ cs := List.contains_iff_mem.mp hsettled
    split
    · rw [size]
      omega
    · -- the constant that settles the outcome was an operand before
      have hroom := sizeAll_filter_add_le (p := fun c => !c.isLiteral) hmem rfl
      have hkept := sizeAll_filter_le invokesPolicies (cs.filter fun c => !c.isLiteral)
      rw [size_connective, sizeAll_append, sizeAll, sizeAll]
      omega
  · split
    · rw [size]
      omega
    · rename_i c hkept
      rw [hkept, sizeAll, sizeAll] at hlive
      omega
    · rw [size_connective]
      omega

mutual

theorem size_simplify_le : (c : Condition) → c.simplify.size ≤ c.size
  | .not c => by
    have hc := size_simplify_le c
    have hnegate := size_negate_le c.simplify
    rw [simplify, size]
    omega
  | .all cs => by
    have hcs := sizeAll_simplifySpread_le true cs
    have hfold := size_fold_le true (simplifySpread true cs)
    rw [simplify, size]
    omega
  | .any cs => by
    have hcs := sizeAll_simplifySpread_le false cs
    have hfold := size_fold_le false (simplifySpread false cs)
    rw [simplify, size]
    omega
  | .firstMatch [] => Nat.le_refl _
  | .firstMatch (_ :: _) => Nat.le_refl _
  | .allMatch [] => Nat.le_refl _
  | .allMatch (_ :: _) => Nat.le_refl _
  | .literal _ => Nat.le_refl _
  | .test _ => Nat.le_refl _
  | .callPolicy _ => Nat.le_refl _
  | .inCall => Nat.le_refl _

theorem sizeAll_simplifySpread_le (neutral : Bool) : (cs : List Condition) →
    sizeAll (simplifySpread neutral cs) ≤ sizeAll cs
  | [] => Nat.le_refl _
  | c :: cs => by
    have hspread := sizeAll_spread_le neutral c.simplify
    have hc := size_simplify_le c
    have hcs := sizeAll_simplifySpread_le neutral cs
    rw [simplifySpread, sizeAll_append, sizeAll]
    omega

end

end Condition

namespace Statement

section

variable (perStatement perCondition : Nat)

mutual

/-- The statements and conditions that a statement is made of, itself included, each counted at its
weight. -/
def weight : Statement → Nat
  | .branch guard a b => perStatement + perCondition * guard.size + weightAll a + weightAll b
  | .write _ _ | .setDefaultPolicy _ | .call _ | .comment _ | .control _ => perStatement

/-- The statements and conditions that several statements are made of, each counted at its
weight. -/
def weightAll : List Statement → Nat
  | [] => 0
  | s :: ss => weight s + weightAll ss

end

theorem weightAll_append (ss ts : List Statement) :
    weightAll perStatement perCondition (ss ++ ts) =
      weightAll perStatement perCondition ss + weightAll perStatement perCondition ts := by
  induction ss with
  | nil => rw [List.nil_append, weightAll, Nat.zero_add]
  | cons s ss ih => rw [List.cons_append, weightAll, weightAll, ih, Nat.add_assoc]

theorem weightAll_singleton (s : Statement) :
    weightAll perStatement perCondition [s] = weight perStatement perCondition s := rfl

theorem weightAll_cutAfterEnd_le (ss : List Statement) :
    weightAll perStatement perCondition (cutAfterEnd ss) ≤
      weightAll perStatement perCondition ss := by
  induction ss with
  | nil => exact Nat.le_refl _
  | cons s ss ih =>
    rw [cutAfterEnd, weightAll]
    split
    · rw [weightAll_singleton]
      omega
    · rw [weightAll]
      omega

theorem weightAll_simplifyBranch_le (guard : Condition) (a b : List Statement) :
    weightAll perStatement perCondition (simplifyBranch guard a b) ≤
      weight perStatement perCondition (.branch guard a b) := by
  rw [weight]
  unfold simplifyBranch
  split
  · omega
  · omega
  · split
    · exact Nat.zero_le _
    · exact Nat.le_refl _

mutual

theorem weightAll_simplify_le : (s : Statement) →
    weightAll perStatement perCondition s.simplify ≤ weight perStatement perCondition s
  | .comment _ => Nat.zero_le _
  | .branch guard a b => by
    have hbranch := weightAll_simplifyBranch_le perStatement perCondition guard.simplify
      (cutAfterEnd (simplifyEach a)) (cutAfterEnd (simplifyEach b))
    have hguard := Nat.mul_le_mul_left perCondition guard.size_simplify_le
    have ha := Nat.le_trans (weightAll_cutAfterEnd_le perStatement perCondition _)
      (weightAll_simplifyEach_le a)
    have hb := Nat.le_trans (weightAll_cutAfterEnd_le perStatement perCondition _)
      (weightAll_simplifyEach_le b)
    rw [weight] at hbranch
    rw [simplify, weight]
    omega
  | .write _ _ => Nat.le_refl _
  | .setDefaultPolicy _ => Nat.le_refl _
  | .call _ => Nat.le_refl _
  | .control _ => Nat.le_refl _

theorem weightAll_simplifyEach_le : (ss : List Statement) →
    weightAll perStatement perCondition (simplifyEach ss) ≤
      weightAll perStatement perCondition ss
  | [] => Nat.le_refl _
  | s :: ss => by
    have hs := weightAll_simplify_le s
    have hss := weightAll_simplifyEach_le ss
    rw [simplifyEach, weightAll_append, weightAll]
    omega

end

/-- A simplified program is not larger, whatever weights its statements and conditions have. -/
theorem weightAll_simplifyAll_le (ss : List Statement) :
    weightAll perStatement perCondition (simplifyAll ss) ≤
      weightAll perStatement perCondition ss :=
  Nat.le_trans (weightAll_cutAfterEnd_le perStatement perCondition _)
    (weightAll_simplifyEach_le perStatement perCondition ss)

end

end Statement

namespace Policy

/-- The number of statements of a policy, on every level. -/
def statementCount (p : Policy) : Nat := Statement.weightAll 1 0 p.statements

/-- The number of conditions in the guards of a policy, on every level. -/
def conditionCount (p : Policy) : Nat := Statement.weightAll 0 1 p.statements

end Policy

end RoutePolicy
