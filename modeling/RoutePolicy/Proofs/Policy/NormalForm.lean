import RoutePolicy.Proofs.Policy.Size

/-!
# The normal form of programs

What a simplified program looks like, described without simplification.  Each rewriting step can
make room for another one: a connective that is left with one operand becomes that operand, which
may be a negation inside a negation, or a connective inside one of its own kind.  So operands are
simplified and spread before a connective is folded, and one pass reaches the normal form.

* `Condition.IsNormal`, `Statement.IsNormal`, `Policy.IsNormal` — the normal form;
* `Condition.isNormal_simplify`, `Condition.simplify_of_isNormal` — a simplified guard is normal,
  and a normal guard stays as it is; `Statement.isNormalAll_simplifyAll` and
  `Statement.simplifyAll_of_isNormalAll` for programs;
* `Policy.simplify_normalForm` — all of this for policies, and that they do not grow.
-/

set_option autoImplicit false

namespace RoutePolicy

namespace Condition

/-! ## Normal conditions -/

/-- Whether a condition is a negation. -/
def isNegation : Condition → Bool
  | .not _ => true
  | _ => false

/-- Whether a condition is a conjunction (`neutral = true`) or a disjunction
(`neutral = false`). -/
def isConnective (neutral : Bool) : Condition → Bool
  | .all _ => neutral
  | .any _ => !neutral
  | _ => false

/-- The operands of a connective that can do without none of them.  A constant is only there to
settle the outcome, behind operands that are evaluated because they can run a policy. -/
structure NormalOperands (neutral : Bool) (cs : List Condition) : Prop where
  two_le : 2 ≤ cs.length
  flat : ∀ c ∈ cs, c.isConnective neutral = false
  constants : (∀ c ∈ cs, c.isLiteral = false) ∨
    ∃ front, cs = front ++ [.literal (!neutral)] ∧ ∀ c ∈ front, c.invokesPolicies = true

mutual

/-- Nothing in the condition can be simplified: no negation of a constant or of a negation, no
empty chain, and no connective with operands that it can do without. -/
def IsNormal : Condition → Prop
  | .not c => c.isLiteral = false ∧ c.isNegation = false ∧ IsNormal c
  | .all cs => NormalOperands true cs ∧ AllNormal cs
  | .any cs => NormalOperands false cs ∧ AllNormal cs
  | .firstMatch targets => targets ≠ []
  | .allMatch targets => targets ≠ []
  | .literal _ | .test _ | .callPolicy _ | .inCall => True

/-- Nothing in the conditions can be simplified. -/
def AllNormal : List Condition → Prop
  | [] => True
  | c :: cs => IsNormal c ∧ AllNormal cs

end

theorem allNormal_iff {cs : List Condition} : AllNormal cs ↔ ∀ c ∈ cs, c.IsNormal := by
  induction cs with
  | nil => simp [AllNormal]
  | cons c cs ih => rw [AllNormal, ih, List.forall_mem_cons]

theorem isNormal_connective {neutral : Bool} {cs : List Condition} :
    (connective neutral cs).IsNormal ↔ NormalOperands neutral cs ∧ ∀ c ∈ cs, c.IsNormal := by
  cases neutral <;> simp only [connective, if_true, if_false, Bool.false_eq_true, IsNormal,
    allNormal_iff]

theorem isLiteral_of_invokesPolicies {c : Condition} (h : c.invokesPolicies = true) :
    c.isLiteral = false := by
  cases c with
  | literal b => simp [invokesPolicies] at h
  | _ => rfl

/-! ## Spreading operands -/

theorem exists_eq_connective {neutral : Bool} {c : Condition}
    (h : c.isConnective neutral = true) : ∃ cs, c = connective neutral cs := by
  cases c with
  | all cs =>
    obtain rfl : neutral = true := h
    exact ⟨cs, rfl⟩
  | any cs =>
    obtain rfl : neutral = false := by simpa [isConnective] using h
    exact ⟨cs, rfl⟩
  | _ => cases h

theorem spread_connective (neutral : Bool) (cs : List Condition) :
    spread neutral (connective neutral cs) = cs := by
  cases neutral <;> rfl

theorem spread_of_isConnective {neutral : Bool} {c : Condition}
    (h : c.isConnective neutral = false) : spread neutral c = [c] := by
  cases c with
  | all cs =>
    obtain rfl : neutral = false := h
    rfl
  | any cs =>
    obtain rfl : neutral = true := by simpa [isConnective] using h
    rfl
  | _ => rfl

/-! ## Simplified conditions are normal -/

theorem isNormal_negate {c : Condition} (h : c.IsNormal) : (negate c).IsNormal := by
  cases c with
  | literal b => trivial
  | not c => exact h.2.2
  | _ => exact ⟨rfl, rfl, h⟩

/-- An operand of the same kind as its connective is replaced by its own operands, which are of
another kind. -/
theorem isNormal_of_mem_spread {neutral : Bool} {c d : Condition} (hc : c.IsNormal)
    (hd : d ∈ spread neutral c) : d.IsNormal ∧ d.isConnective neutral = false := by
  by_cases hkind : c.isConnective neutral = true
  · obtain ⟨cs, rfl⟩ := exists_eq_connective hkind
    obtain ⟨hoperands, hnormal⟩ := isNormal_connective.mp hc
    rw [spread_connective] at hd
    exact ⟨hnormal d hd, hoperands.flat d hd⟩
  · have hother : c.isConnective neutral = false := Bool.eq_false_iff.mpr hkind
    rw [spread_of_isConnective hother, List.mem_singleton] at hd
    subst hd
    exact ⟨hc, hother⟩

theorem isNormal_fold {neutral : Bool} {cs : List Condition} (hnormal : ∀ c ∈ cs, c.IsNormal)
    (hflat : ∀ c ∈ cs, c.isConnective neutral = false) : (fold neutral cs).IsNormal := by
  have hlive : ∀ c ∈ cs.filter (fun c => !c.isLiteral), c ∈ cs ∧ c.isLiteral = false := by
    intro c hc
    simpa using List.mem_filter.mp hc
  unfold fold
  simp only
  split
  · split
    · trivial
    · rename_i hkept
      refine isNormal_connective.mpr ⟨⟨?_, ?_, .inr ⟨_, rfl, ?_⟩⟩, ?_⟩
      · rw [List.length_append, List.length_singleton]
        have hpos := List.length_pos_iff.mpr (mt List.isEmpty_iff.mpr hkept)
        omega
      · intro c hc
        rcases List.mem_append.mp hc with hc | hc
        · exact hflat c (hlive c (List.mem_filter.mp hc).1).1
        · rw [List.mem_singleton.mp hc]
          rfl
      · exact fun c hc => (List.mem_filter.mp hc).2
      · intro c hc
        rcases List.mem_append.mp hc with hc | hc
        · exact hnormal c (hlive c (List.mem_filter.mp hc).1).1
        · rw [List.mem_singleton.mp hc]
          trivial
  · split
    · trivial
    · rename_i c hkept
      exact hnormal c (hlive c (hkept ▸ List.mem_cons_self)).1
    · rename_i hnil hsingle
      refine isNormal_connective.mpr ⟨⟨?_, ?_, .inl ?_⟩, ?_⟩
      · cases hkept : cs.filter (fun c => !c.isLiteral) with
        | nil => exact absurd hkept hnil
        | cons c rest =>
          cases rest with
          | nil => exact absurd hkept (hsingle c)
          | cons d rest => exact Nat.le_add_left 2 rest.length
      · exact fun c hc => hflat c (hlive c hc).1
      · exact fun c hc => (hlive c hc).2
      · exact fun c hc => hnormal c (hlive c hc).1

mutual

/-- A simplified condition is normal. -/
theorem isNormal_simplify : (c : Condition) → c.simplify.IsNormal
  | .not c => isNormal_negate (isNormal_simplify c)
  | .all cs =>
    isNormal_fold (fun _ hc => (isNormal_of_mem_simplifySpread true cs hc).1)
      fun _ hc => (isNormal_of_mem_simplifySpread true cs hc).2
  | .any cs =>
    isNormal_fold (fun _ hc => (isNormal_of_mem_simplifySpread false cs hc).1)
      fun _ hc => (isNormal_of_mem_simplifySpread false cs hc).2
  | .firstMatch [] => trivial
  | .firstMatch (r :: rs) => List.cons_ne_nil r rs
  | .allMatch [] => trivial
  | .allMatch (r :: rs) => List.cons_ne_nil r rs
  | .literal _ => trivial
  | .test _ => trivial
  | .callPolicy _ => trivial
  | .inCall => trivial

theorem isNormal_of_mem_simplifySpread (neutral : Bool) : (cs : List Condition) →
    {d : Condition} → d ∈ simplifySpread neutral cs → d.IsNormal ∧ d.isConnective neutral = false
  | [], _, hd => nomatch hd
  | c :: cs, d, hd => by
    rw [simplifySpread] at hd
    rcases List.mem_append.mp hd with hd | hd
    · exact isNormal_of_mem_spread (isNormal_simplify c) hd
    · exact isNormal_of_mem_simplifySpread neutral cs hd

end

/-! ## Normal conditions stay as they are -/

theorem negate_of_isNormal {c : Condition} (h : (Condition.not c).IsNormal) :
    negate c = .not c := by
  obtain ⟨hliteral, hnegation, -⟩ := h
  cases c with
  | literal b => cases hliteral
  | not c => cases hnegation
  | _ => rfl

theorem fold_of_normalOperands {neutral : Bool} {cs : List Condition}
    (h : NormalOperands neutral cs) : fold neutral cs = connective neutral cs := by
  have hlength := h.two_le
  rcases h.constants with hnone | ⟨front, rfl, hfront⟩
  · have hsettled : cs.contains (.literal (!neutral)) = false := by
      rw [List.contains_eq_mem, decide_eq_false_iff_not]
      intro hmem
      have hliteral := hnone _ hmem
      simp [isLiteral] at hliteral
    have hlive : cs.filter (fun c => !c.isLiteral) = cs :=
      List.filter_eq_self.mpr fun c hc => by rw [hnone c hc]; rfl
    unfold fold
    simp only [hsettled, hlive, Bool.false_eq_true, if_false]
    match cs, hlength with
    | _ :: _ :: _, _ => rfl
  · have hsettled : (front ++ [literal (!neutral)]).contains (literal (!neutral)) = true := by
      simp
    have hlive : (front ++ [literal (!neutral)]).filter (fun c => !c.isLiteral) = front := by
      rw [List.filter_append, List.filter_eq_self.mpr]
      · simp [isLiteral]
      · exact fun c hc => by rw [isLiteral_of_invokesPolicies (hfront c hc)]; rfl
    have hkept : front.filter invokesPolicies = front := List.filter_eq_self.mpr hfront
    have hne : front.isEmpty = false := by
      cases front with
      | nil => simp at hlength
      | cons c cs => rfl
    unfold fold
    simp only [hsettled, hlive, hkept, hne, if_true, Bool.false_eq_true, if_false]

mutual

/-- A normal condition is its own simplified form. -/
theorem simplify_of_isNormal : (c : Condition) → c.IsNormal → c.simplify = c
  | .not c, h => by rw [simplify, simplify_of_isNormal c h.2.2, negate_of_isNormal h]
  | .all cs, h => by
    rw [simplify, simplifySpread_of_allNormal cs h.1.flat h.2, fold_of_normalOperands h.1]
    rfl
  | .any cs, h => by
    rw [simplify, simplifySpread_of_allNormal cs h.1.flat h.2, fold_of_normalOperands h.1]
    rfl
  | .firstMatch [], h => absurd rfl h
  | .firstMatch (_ :: _), _ => rfl
  | .allMatch [], h => absurd rfl h
  | .allMatch (_ :: _), _ => rfl
  | .literal _, _ => rfl
  | .test _, _ => rfl
  | .callPolicy _, _ => rfl
  | .inCall, _ => rfl

theorem simplifySpread_of_allNormal {neutral : Bool} : (cs : List Condition) →
    (∀ c ∈ cs, c.isConnective neutral = false) → AllNormal cs → simplifySpread neutral cs = cs
  | [], _, _ => rfl
  | c :: cs, hflat, hnormal => by
    obtain ⟨hc, hcs⟩ := List.forall_mem_cons.mp hflat
    rw [simplifySpread, simplify_of_isNormal c hnormal.1, spread_of_isConnective hc,
      simplifySpread_of_allNormal cs hcs hnormal.2, List.singleton_append]

end

end Condition

namespace Statement

/-! ## Normal programs -/

/-- A branch that a program cannot do without: its guard is not a constant, and when there is
nothing in it the guard can run a policy. -/
structure Needed (guard : Condition) (a b : List Statement) : Prop where
  undecided : guard.isLiteral = false
  effective : a = [] → b = [] → guard.invokesPolicies = true

mutual

/-- Nothing in the statement can be simplified. -/
def IsNormal : Statement → Prop
  | .comment _ => False
  | .branch guard a b => Needed guard a b ∧ guard.IsNormal ∧ IsNormalAll a ∧ IsNormalAll b
  | .write _ _ | .setDefaultPolicy _ | .call _ | .control _ => True

/-- Nothing in the statements can be simplified, and none stands behind one that always ends the
list. -/
def IsNormalAll : List Statement → Prop
  | [] => True
  | s :: ss => IsNormal s ∧ (s.alwaysEnds = true → ss = []) ∧ IsNormalAll ss

end

theorem IsNormalAll.isNormal {ss : List Statement} (h : IsNormalAll ss) :
    ∀ s ∈ ss, s.IsNormal := by
  induction ss with
  | nil => exact fun s hs => nomatch hs
  | cons s ss ih => exact List.forall_mem_cons.mpr ⟨h.1, ih h.2.2⟩

/-! ## Simplified programs are normal -/

theorem isNormalAll_cutAfterEnd {ss : List Statement} (h : ∀ s ∈ ss, s.IsNormal) :
    IsNormalAll (cutAfterEnd ss) := by
  induction ss with
  | nil => trivial
  | cons s ss ih =>
    obtain ⟨hs, hss⟩ := List.forall_mem_cons.mp h
    rw [cutAfterEnd]
    split
    · exact ⟨hs, fun _ => rfl, trivial⟩
    · rename_i hends
      exact ⟨hs, fun hends' => absurd hends' hends, ih hss⟩

theorem isNormal_of_mem_simplifyBranch {guard : Condition} {a b : List Statement}
    (hguard : guard.IsNormal) (ha : IsNormalAll a) (hb : IsNormalAll b) :
    ∀ s ∈ simplifyBranch guard a b, s.IsNormal := by
  unfold simplifyBranch
  split
  · exact ha.isNormal
  · exact hb.isNormal
  · rename_i htrue hfalse
    split
    · exact fun s hs => nomatch hs
    · rename_i hkept
      refine List.forall_mem_singleton.mpr ⟨⟨?_, ?_⟩, hguard, ha, hb⟩
      · cases guard with
        | literal value =>
          cases value with
          | true => exact absurd rfl htrue
          | false => exact absurd rfl hfalse
        | _ => rfl
      · rintro rfl rfl
        simpa using hkept

mutual

theorem isNormal_of_mem_simplify : (s : Statement) → ∀ t ∈ s.simplify, t.IsNormal
  | .comment _ => fun _ ht => nomatch ht
  | .branch guard a b =>
    isNormal_of_mem_simplifyBranch guard.isNormal_simplify
      (isNormalAll_cutAfterEnd (isNormal_of_mem_simplifyEach a))
      (isNormalAll_cutAfterEnd (isNormal_of_mem_simplifyEach b))
  | .write _ _ => List.forall_mem_singleton.mpr trivial
  | .setDefaultPolicy _ => List.forall_mem_singleton.mpr trivial
  | .call _ => List.forall_mem_singleton.mpr trivial
  | .control _ => List.forall_mem_singleton.mpr trivial

theorem isNormal_of_mem_simplifyEach : (ss : List Statement) →
    ∀ t ∈ simplifyEach ss, t.IsNormal
  | [] => fun _ ht => nomatch ht
  | s :: ss => by
    rw [simplifyEach]
    exact List.forall_mem_append.mpr
      ⟨isNormal_of_mem_simplify s, isNormal_of_mem_simplifyEach ss⟩

end

/-- A simplified program is normal. -/
theorem isNormalAll_simplifyAll (ss : List Statement) : IsNormalAll (simplifyAll ss) :=
  isNormalAll_cutAfterEnd (isNormal_of_mem_simplifyEach ss)

/-! ## Normal programs stay as they are -/

theorem cutAfterEnd_of_isNormalAll {ss : List Statement} (h : IsNormalAll ss) :
    cutAfterEnd ss = ss := by
  induction ss with
  | nil => rfl
  | cons s ss ih =>
    rw [cutAfterEnd]
    split
    · rename_i hends
      rw [h.2.1 hends]
    · rw [ih h.2.2]

theorem simplifyBranch_of_needed {guard : Condition} {a b : List Statement}
    (h : Needed guard a b) : simplifyBranch guard a b = [.branch guard a b] := by
  have hundecided := h.undecided
  have hkept : (a.isEmpty && b.isEmpty && !guard.invokesPolicies) = false := by
    cases a with
    | cons s ss => rfl
    | nil =>
      cases b with
      | cons s ss => rfl
      | nil => simp [h.effective rfl rfl]
  unfold simplifyBranch
  split
  · cases hundecided
  · cases hundecided
  · rw [if_neg (by rw [hkept]; exact Bool.false_ne_true)]

mutual

theorem simplify_of_isNormal : (s : Statement) → s.IsNormal → s.simplify = [s]
  | .comment _, h => False.elim h
  | .branch guard a b, ⟨hneeded, hguard, ha, hb⟩ => by
    rw [simplify, guard.simplify_of_isNormal hguard, simplifyEach_of_isNormalAll a ha,
      simplifyEach_of_isNormalAll b hb, cutAfterEnd_of_isNormalAll ha,
      cutAfterEnd_of_isNormalAll hb, simplifyBranch_of_needed hneeded]
  | .write _ _, _ => rfl
  | .setDefaultPolicy _, _ => rfl
  | .call _, _ => rfl
  | .control _, _ => rfl

theorem simplifyEach_of_isNormalAll : (ss : List Statement) → IsNormalAll ss →
    simplifyEach ss = ss
  | [], _ => rfl
  | s :: ss, h => by
    rw [simplifyEach, simplify_of_isNormal s h.1, simplifyEach_of_isNormalAll ss h.2.2,
      List.singleton_append]

end

/-- A normal program is its own simplified form. -/
theorem simplifyAll_of_isNormalAll {ss : List Statement} (h : IsNormalAll ss) :
    simplifyAll ss = ss := by
  rw [simplifyAll, simplifyEach_of_isNormalAll ss h, cutAfterEnd_of_isNormalAll h]

end Statement

/-! ## Policies -/

namespace Policy

/-- The program of the policy is in normal form. -/
def IsNormal (p : Policy) : Prop := Statement.IsNormalAll p.statements

theorem simplify_of_isNormal {p : Policy} (h : p.IsNormal) : p.simplify = p := by
  rw [simplify, Statement.simplifyAll_of_isNormalAll h]

theorem isNormal_simplify (p : Policy) : p.simplify.IsNormal :=
  Statement.isNormalAll_simplifyAll p.statements

/-- **Simplification reaches a normal form in one pass.**  A simplified policy is normal, and the
policies that simplification leaves as they are are those in normal form; so a second pass changes
nothing.  Neither the statements nor the conditions become more. -/
theorem simplify_normalForm (p : Policy) :
    p.simplify.IsNormal ∧ (∀ q : Policy, q.simplify = q ↔ q.IsNormal) ∧
      p.simplify.simplify = p.simplify ∧
      p.simplify.statementCount ≤ p.statementCount ∧
      p.simplify.conditionCount ≤ p.conditionCount := by
  refine ⟨p.isNormal_simplify, fun q => ⟨fun h => ?_, simplify_of_isNormal⟩,
    simplify_of_isNormal p.isNormal_simplify, ?_, ?_⟩
  · rw [← h]
    exact q.isNormal_simplify
  · exact Statement.weightAll_simplifyAll_le 1 0 p.statements
  · exact Statement.weightAll_simplifyAll_le 0 1 p.statements

/-- A conjunction that is left with one operand uncovers a double negation, and the disjunction
inside that is spread into the one around it. -/
example :
    Policy.simplify
      { name := "p"
        statements := [.guarded
          (.any [.inCall, .not (.all [.literal true, .not (.any [.callPolicy (.named "q"),
            .literal false, .test (.tag 7)])])])
          [.control .exitAccept, .comment "unreachable"]] } =
      { name := "p"
        statements := [.guarded
          (.any [.inCall, .callPolicy (.named "q"), .test (.tag 7)]) [.control .exitAccept]] } := by
  rfl

end Policy

end RoutePolicy
