import RoutePolicy.Policy.Simplify
import RoutePolicy.Proofs.Registry.Linked

/-!
# Simplification keeps the meaning of programs

A simplified condition is true where the condition is, and a simplified list of statements does
what the list does, in every table and every context.

The verdict itself may change, since `not (not c)` turns an undecided verdict into a definite one
and its simplified form `c` does not; no program can tell, because guards only ask whether a
verdict is true.  Operands that can run a policy are kept where a constant settles a connective,
for they are evaluated all the same.

* `Condition.holds_simplify`, `Statement.performAll_simplifyAll` — the two statements above;
* `Statement.alwaysEnds_thenIf` — what follows a statement that always ends is unreachable.
-/

set_option autoImplicit false

namespace RoutePolicy

variable (names : List String) (ctx : Context)

namespace Condition

/-! ## Operands without effects -/

mutual

theorem link_of_invokesPolicies : (c : Condition) → c.invokesPolicies = false →
    c.link names = c
  | .literal _, _ => by rw [link]
  | .test _, _ => by rw [link]
  | .not c, h => by rw [link, link_of_invokesPolicies c (by simpa [invokesPolicies] using h)]
  | .all cs, h => by rw [link, linkAll_of_anyInvokes cs (by simpa [invokesPolicies] using h)]
  | .any cs, h => by rw [link, linkAll_of_anyInvokes cs (by simpa [invokesPolicies] using h)]
  | .firstMatch _, h => by simp [invokesPolicies] at h
  | .allMatch _, h => by simp [invokesPolicies] at h
  | .callPolicy _, h => by simp [invokesPolicies] at h
  | .inCall, _ => by rw [link]

theorem linkAll_of_anyInvokes : (cs : List Condition) → anyInvokes cs = false →
    linkAll names cs = cs
  | [], _ => by rw [linkAll]
  | c :: cs, h => by
    rw [anyInvokes, Bool.or_eq_false_iff] at h
    rw [linkAll, link_of_invokesPolicies c h.1, linkAll_of_anyInvokes cs h.2]

end

theorem silent_holds {c : Condition} (h : c.invokesPolicies = false) :
    Evaluation.Silent (c.holds names ctx) := by
  rw [holds, map_eq_pure_bind, link_of_invokesPolicies names c h]
  exact (silent_judge ctx c h).bind fun _ => .pure _

/-- Where the value of a connective is not used, only the operands that can run a policy count. -/
theorem holdsEach_forget {α : Type} (neutral : Bool) (cs : List Condition) (k : Evaluation α) :
    (holdsEach names ctx neutral cs >>= fun _ => k) =
      (holdsEach names ctx neutral (cs.filter invokesPolicies) >>= fun _ => k) := by
  induction cs with
  | nil => rfl
  | cons c cs ih =>
    by_cases hc : c.invokesPolicies = true
    · rw [List.filter_cons_of_pos hc]
      simp only [holdsEach, bind_assoc, pure_bind, ih]
    · have hs : c.invokesPolicies = false := by simpa using hc
      rw [List.filter_cons_of_neg hc, ← ih]
      simp only [holdsEach, bind_assoc, pure_bind]
      exact (silent_holds names ctx hs).forget _

/-! ## Constants among the operands -/

theorem isLiteral_iff {c : Condition} : c.isLiteral = true ↔ ∃ b, c = .literal b := by
  cases c <;> simp [isLiteral]

theorem invokesPolicies_of_isLiteral {c : Condition} (h : c.isLiteral = true) :
    c.invokesPolicies = false := by
  obtain ⟨b, rfl⟩ := isLiteral_iff.mp h
  rfl

/-- A constant that differs from the neutral one settles the value of a connective. -/
theorem holdsEach_of_settled {neutral : Bool} {cs : List Condition}
    (h : .literal (!neutral) ∈ cs) :
    holdsEach names ctx neutral cs =
      (holdsEach names ctx neutral cs >>= fun _ => pure (!neutral)) := by
  induction cs with
  | nil => simp at h
  | cons c cs ih =>
    rcases List.mem_cons.mp h with rfl | h
    · simp only [holdsEach, holds_literal, bind_assoc, pure_bind, joined_absorbing_left]
    · rw [holdsEach, ih h]
      simp only [bind_assoc, pure_bind, joined_absorbing_right]

/-- Neutral constants may be left out. -/
theorem holdsEach_of_unsettled {neutral : Bool} {cs : List Condition}
    (h : .literal (!neutral) ∉ cs) :
    holdsEach names ctx neutral (cs.filter (fun c => !c.isLiteral)) =
      holdsEach names ctx neutral cs := by
  induction cs with
  | nil => rfl
  | cons c cs ih =>
    rw [List.mem_cons, not_or] at h
    rw [List.filter_cons, holdsEach, ← ih h.2]
    cases hc : c.isLiteral with
    | false => simp [holdsEach]
    | true =>
      obtain ⟨b, rfl⟩ := isLiteral_iff.mp hc
      have hb : b = neutral := by
        have := h.1
        cases b <;> cases neutral <;> simp_all
      subst hb
      simp only [Bool.not_true, Bool.false_eq_true, if_false, holds_literal, pure_bind,
        joined_neutral_left, bind_pure]

/-- The operands that are kept when a constant settles the value. -/
theorem filter_live (cs : List Condition) :
    (cs.filter (fun c => !c.isLiteral)).filter invokesPolicies = cs.filter invokesPolicies := by
  rw [List.filter_filter]
  refine List.filter_congr fun c _ => ?_
  cases hc : c.isLiteral with
  | false => simp
  | true => simp [invokesPolicies_of_isLiteral hc]

theorem holds_fold (neutral : Bool) (cs : List Condition) :
    (fold neutral cs).holds names ctx = holdsEach names ctx neutral cs := by
  unfold fold
  by_cases hm : .literal (!neutral) ∈ cs
  · simp only [List.contains_iff_mem.mpr hm, if_true, filter_live]
    rw [holdsEach_of_settled names ctx hm, holdsEach_forget]
    split
    · rename_i hk
      rw [List.isEmpty_iff.mp hk, holds_literal, holdsEach, pure_bind]
    · rw [holds_connective, holdsEach_append]
      simp only [holdsEach_singleton, holds_literal, pure_bind, joined_absorbing_right]
  · have hf : cs.contains (.literal (!neutral)) = false := by simpa using hm
    simp only [hf, Bool.false_eq_true, if_false]
    rw [← holdsEach_of_unsettled names ctx hm]
    split
    · rename_i hk
      rw [hk, holds_literal, holdsEach]
    · rename_i c hk
      rw [hk, holdsEach_singleton]
    · rw [holds_connective]

/-! ## Conditions -/

theorem holdsEach_spread (neutral : Bool) (c : Condition) :
    holdsEach names ctx neutral (spread neutral c) = c.holds names ctx := by
  cases c with
  | all cs => cases neutral <;> simp [spread, holdsEach_singleton, holds_all]
  | any cs => cases neutral <;> simp [spread, holdsEach_singleton, holds_any]
  | _ => exact holdsEach_singleton names ctx neutral _

theorem holds_negate (c : Condition) :
    (negate c).holds names ctx = (Condition.not c).holds names ctx := by
  cases c with
  | literal b => simp [negate, holds_literal, holds_not]
  | not c => simp [negate, holds_not]
  | _ => rfl

mutual

/-- **A simplified condition is true exactly where the condition is**, and has the same
effects. -/
theorem holds_simplify : (c : Condition) → c.simplify.holds names ctx = c.holds names ctx
  | .not c => by
    rw [simplify, holds_negate, holds_not, holds_not, holds_simplify c]
  | .all cs => by
    rw [simplify, holds_fold, holdsEach_simplifySpread true cs, holds_all]
  | .any cs => by
    rw [simplify, holds_fold, holdsEach_simplifySpread false cs, holds_any]
  | .firstMatch [] => by
    simp [simplify, holds_literal, holds_firstMatch, Context.askFirst, Verdict.isTrue]
  | .firstMatch (r :: rs) => by simp [simplify]
  | .allMatch [] => by
    simp [simplify, holds_literal, holds_allMatch]
  | .allMatch (r :: rs) => by simp [simplify]
  | .literal b => by rw [simplify]
  | .test p => by rw [simplify]
  | .callPolicy target => by rw [simplify]
  | .inCall => by rw [simplify]

theorem holdsEach_simplifySpread (neutral : Bool) : (cs : List Condition) →
    holdsEach names ctx neutral (simplifySpread neutral cs) = holdsEach names ctx neutral cs
  | [] => by rw [simplifySpread]
  | c :: cs => by
    rw [simplifySpread, holdsEach_append, holdsEach_spread, holds_simplify c,
      holdsEach_simplifySpread neutral cs, holdsEach]

end

end Condition

namespace Statement

/-! ## Unreachable statements -/

theorem endsList_thenIf {kind : Control} (h : kind.endsList = true) (k : Evaluation Flow) :
    kind.run.thenIf .fallsThrough k = kind.run := by
  cases kind <;> simp_all [Control.endsList, Control.run, Evaluation.thenIf]

mutual

/-- **What comes after a statement that always ends its list is never reached.** -/
theorem alwaysEnds_thenIf (k : Evaluation Flow) : (s : Statement) → s.alwaysEnds = true →
    (s.perform names ctx).thenIf .fallsThrough k = s.perform names ctx
  | .control kind, h => by
    rw [perform_control]
    exact endsList_thenIf (by simpa [alwaysEnds] using h) k
  | .branch guard a b, h => by
    rw [alwaysEnds, Bool.and_eq_true] at h
    rw [perform_branch, Evaluation.bind_thenIf]
    refine bind_congr fun taken => ?_
    cases taken with
    | true => exact someEnds_thenIf k a h.1
    | false => exact someEnds_thenIf k b h.2
  | .write .., h => by simp [alwaysEnds] at h
  | .setDefaultPolicy _, h => by simp [alwaysEnds] at h
  | .call _, h => by simp [alwaysEnds] at h
  | .comment _, h => by simp [alwaysEnds] at h

theorem someEnds_thenIf (k : Evaluation Flow) : (ss : List Statement) → someEnds ss = true →
    (performAll names ctx ss).thenIf .fallsThrough k = performAll names ctx ss
  | [], h => by simp [someEnds] at h
  | s :: ss, h => by
    rw [someEnds, Bool.or_eq_true] at h
    rw [performAll_cons, Evaluation.thenIf_assoc]
    rcases h with h | h
    · rw [alwaysEnds_thenIf _ s h, alwaysEnds_thenIf _ s h]
    · rw [someEnds_thenIf k ss h]

end

theorem performAll_cutAfterEnd (ss : List Statement) :
    performAll names ctx (cutAfterEnd ss) = performAll names ctx ss := by
  induction ss with
  | nil => rfl
  | cons s ss ih =>
    rw [cutAfterEnd]
    split
    · rename_i h
      rw [performAll_singleton, performAll_cons, alwaysEnds_thenIf names ctx _ s h]
    · rw [performAll_cons, ih, performAll_cons]

/-! ## Statements -/

theorem performAll_simplifyBranch (guard : Condition) (a b : List Statement) :
    performAll names ctx (simplifyBranch guard a b) =
      (branch guard a b).perform names ctx := by
  unfold simplifyBranch
  split
  · simp [perform_branch, Condition.holds_literal]
  · simp [perform_branch, Condition.holds_literal]
  · split
    · rename_i h
      simp only [Bool.and_eq_true, List.isEmpty_iff, Bool.not_eq_true'] at h
      obtain ⟨⟨rfl, rfl⟩, hs⟩ := h
      rw [perform_branch]
      simp only [performAll_nil, ite_self]
      exact ((Condition.silent_holds names ctx hs).forget _).symm
    · exact performAll_singleton names ctx _

theorem perform_branch_congr {guard guard' : Condition} {a a' b b' : List Statement}
    (hg : guard.holds names ctx = guard'.holds names ctx)
    (ha : performAll names ctx a = performAll names ctx a')
    (hb : performAll names ctx b = performAll names ctx b') :
    (branch guard a b).perform names ctx = (branch guard' a' b').perform names ctx := by
  rw [perform_branch, perform_branch, hg, ha, hb]

mutual

/-- The statements that stand for a statement do what the statement does. -/
theorem performAll_simplify : (s : Statement) →
    performAll names ctx s.simplify = s.perform names ctx
  | .comment text => by rw [simplify, performAll_nil, perform_comment]
  | .branch guard a b => by
    have ha := (performAll_cutAfterEnd names ctx _).trans (performAll_simplifyEach a)
    have hb := (performAll_cutAfterEnd names ctx _).trans (performAll_simplifyEach b)
    rw [simplify, performAll_simplifyBranch]
    exact perform_branch_congr names ctx (Condition.holds_simplify names ctx guard) ha hb
  | .write field update => by rw [simplify, performAll_singleton]
  | .setDefaultPolicy target => by rw [simplify, performAll_singleton]
  | .call target => by rw [simplify, performAll_singleton]
  | .control kind => by rw [simplify, performAll_singleton]

theorem performAll_simplifyEach : (ss : List Statement) →
    performAll names ctx (simplifyEach ss) = performAll names ctx ss
  | [] => by rw [simplifyEach]
  | s :: ss => by
    rw [simplifyEach, performAll_append, performAll_simplify s, performAll_simplifyEach ss,
      performAll_cons]

end

/-- **A simplified program does what the program does**, in every table and every context. -/
theorem performAll_simplifyAll (ss : List Statement) :
    performAll names ctx (simplifyAll ss) = performAll names ctx ss := by
  rw [simplifyAll, performAll_cutAfterEnd, performAll_simplifyEach]

end Statement

end RoutePolicy
