import RoutePolicy.Proofs.Evaluation.Laws
import RoutePolicy.Registry.Link

/-!
# The meaning of a program before it is linked

Linking rewrites a program: it drops some undefined references and keeps others without a link.
Here the meaning that a program will have in a table is stated on the program itself, so that
later proofs follow the syntax that was written and never that of its linked form.

* `Condition.holds names ctx c` — whether `c` is true once it is linked among `names`;
* `Statement.perform`, `Statement.performAll` — what statements do once they are linked;
* `Condition.holdsEach` — the operands of a connective, all of which are evaluated;
* `Context.askNamed` — how the policy of a name is asked.
-/

set_option autoImplicit false

namespace RoutePolicy

variable (names : List String) (ctx : Context)

/-! ## References -/

/-- The reference to a name, linked when the name is defined. -/
def Reference.placed (name : String) : Reference := { name, link := placeOf names name }

theorem Reference.link_linkOrKeep {r : Reference} (h : r.link = none) :
    (r.linkOrKeep names).link = placeOf names r.name := by
  cases hp : placeOf names r.name <;> simp [linkOrKeep, link?, linked, hp, h]

namespace Context

/-- Asks the policy of a name; there is no verdict when the name is not defined. -/
def askNamed (name : String) : Evaluation Verdict := ctx.ask (.placed names name)

theorem ask_linkOrKeep {r : Reference} (h : r.link = none) :
    ctx.ask (r.linkOrKeep names) = ctx.askNamed names r.name :=
  ctx.ask_congr (r.link_linkOrKeep names h)

/-- The members of a chain that linking drops would have left it undecided. -/
theorem askFirst_link? {targets : List Reference} (h : ∀ r ∈ targets, r.link = none) :
    ctx.askFirst (targets.filterMap (·.link? names)) =
      ctx.askFirst (targets.map (·.linkOrKeep names)) := by
  induction targets with
  | nil => rfl
  | cons r rs ih =>
    have hrs := ih fun r' hr' => h r' (List.mem_cons_of_mem _ hr')
    cases hlink : r.link? names with
    | none =>
      have hkept : r.linkOrKeep names = r := by simp [Reference.linkOrKeep, hlink]
      rw [List.filterMap_cons_none hlink, hrs, List.map_cons, askFirst, hkept,
        ctx.ask_unlinked (h r List.mem_cons_self), pure_bind]
      rfl
    | some linked =>
      have hkept : r.linkOrKeep names = linked := by simp [Reference.linkOrKeep, hlink]
      rw [List.filterMap_cons_some hlink, List.map_cons, askFirst, askFirst, hkept, hrs]

end Context

namespace Condition

/-- Whether a condition is true once its references are linked. -/
def holds (c : Condition) : Evaluation Bool := Verdict.isTrue <$> (c.link names).judge ctx

/-- The value of a connective of two operands: a conjunction when the neutral value is true. -/
def joined (neutral a b : Bool) : Bool := if neutral then a && b else a || b

/-- The value of a connective.  Every operand is evaluated, also when the value is settled. -/
def holdsEach (neutral : Bool) : List Condition → Evaluation Bool
  | [] => pure neutral
  | c :: cs => do
    let a ← c.holds names ctx
    let b ← holdsEach neutral cs
    pure (joined neutral a b)

theorem joined_neutral_left (n b : Bool) : joined n n b = b := by
  cases n <;> rfl

theorem joined_absorbing_left (n b : Bool) : joined n (!n) b = !n := by
  cases n <;> rfl

theorem joined_absorbing_right (n a : Bool) : joined n a (!n) = !n := by
  cases n <;> cases a <;> rfl

theorem joined_neutral_right (n a : Bool) : joined n a n = a := by
  cases n <;> cases a <;> rfl

theorem joined_assoc (n a b c : Bool) : joined n (joined n a b) c = joined n a (joined n b c) := by
  cases n <;> cases a <;> cases b <;> rfl

/-! ## Conditions -/

theorem holds_literal (b : Bool) : (literal b).holds names ctx = pure b := rfl

theorem holds_test (p : Predicate) :
    (test p).holds names ctx = (fun env : Environment => p.holds env.route) <$> Evaluation.get :=
  rfl

theorem holds_inCall : inCall.holds names ctx = pure ctx.inCall := rfl

theorem holds_not (c : Condition) :
    (Condition.not c).holds names ctx = (!·) <$> c.holds names ctx := by
  simp [holds, link, judge, Verdict.isTrue]

theorem holds_firstMatch (targets : List Reference) :
    (firstMatch targets).holds names ctx =
      Verdict.isTrue <$> ctx.askFirst (targets.filterMap (·.link? names)) := rfl

theorem holds_allMatch (targets : List Reference) :
    (allMatch targets).holds names ctx =
      if targets.isEmpty then pure false
      else ctx.askAll (targets.map (·.linkOrKeep names)) := by
  cases targets with
  | nil => simp [holds, link, judge, Verdict.isTrue]
  | cons r rs => simp [holds, link, judge, Verdict.isTrue]

theorem holds_callPolicy (target : Reference) :
    (callPolicy target).holds names ctx =
      Verdict.isTrue <$> ctx.ask (target.linkOrKeep names) := rfl

theorem judgeEach_all (cs : List Condition) :
    (List.all · Verdict.isTrue) <$> judgeEach ctx (linkAll names cs) =
      holdsEach names ctx true cs := by
  induction cs with
  | nil => simp [linkAll, judgeEach, holdsEach]
  | cons c cs ih =>
    rw [holdsEach, ← ih]
    simp [linkAll, judgeEach, holds, joined]

theorem judgeEach_any (cs : List Condition) :
    (List.any · Verdict.isTrue) <$> judgeEach ctx (linkAll names cs) =
      holdsEach names ctx false cs := by
  induction cs with
  | nil => simp [linkAll, judgeEach, holdsEach]
  | cons c cs ih =>
    rw [holdsEach, ← ih]
    simp [linkAll, judgeEach, holds, joined]

theorem holds_connective (neutral : Bool) (cs : List Condition) :
    (connective neutral cs).holds names ctx = holdsEach names ctx neutral cs := by
  cases neutral with
  | true =>
    rw [← judgeEach_all]
    simp [connective, holds, link, judge, Verdict.isTrue]
  | false =>
    rw [← judgeEach_any]
    simp [connective, holds, link, judge, Verdict.isTrue]

theorem holds_all (cs : List Condition) :
    (all cs).holds names ctx = holdsEach names ctx true cs := holds_connective names ctx true cs

theorem holds_any (cs : List Condition) :
    (any cs).holds names ctx = holdsEach names ctx false cs := holds_connective names ctx false cs

theorem holdsEach_singleton (neutral : Bool) (c : Condition) :
    holdsEach names ctx neutral [c] = c.holds names ctx := by
  simp [holdsEach, joined_neutral_right]

theorem holdsEach_append (neutral : Bool) (cs ds : List Condition) :
    holdsEach names ctx neutral (cs ++ ds) =
      (do
        let a ← holdsEach names ctx neutral cs
        let b ← holdsEach names ctx neutral ds
        pure (joined neutral a b)) := by
  induction cs with
  | nil => simp only [List.nil_append, holdsEach, pure_bind, joined_neutral_left, bind_pure]
  | cons c cs ih => simp only [List.cons_append, holdsEach, ih, bind_assoc, pure_bind, joined_assoc]

end Condition

/-! ## Statements -/

namespace Statement

/-- What a statement does once it is linked; one that linking drops does nothing. -/
def perform (s : Statement) : Evaluation Flow :=
  match s.link? names with
  | some linked => linked.run ctx
  | none => pure .fallsThrough

/-- What a list of statements does once it is linked. -/
def performAll (ss : List Statement) : Evaluation Flow := runAll ctx (linkAll names ss)

theorem performAll_nil : performAll names ctx [] = pure .fallsThrough := rfl

theorem performAll_cons (s : Statement) (ss : List Statement) :
    performAll names ctx (s :: ss) =
      (s.perform names ctx).thenIf .fallsThrough (performAll names ctx ss) := by
  rw [performAll, linkAll, perform]
  cases h : s.link? names with
  | none => exact (Evaluation.pure_thenIf _ _).symm
  | some linked => exact runAll_cons ctx linked _

theorem performAll_append (ss ts : List Statement) :
    performAll names ctx (ss ++ ts) =
      (performAll names ctx ss).thenIf .fallsThrough (performAll names ctx ts) := by
  induction ss with
  | nil => rw [List.nil_append, performAll_nil, Evaluation.pure_thenIf]
  | cons s ss ih =>
    rw [List.cons_append, performAll_cons, ih, performAll_cons, Evaluation.thenIf_assoc]

theorem performAll_singleton (s : Statement) :
    performAll names ctx [s] = s.perform names ctx := by
  rw [performAll_cons, performAll_nil, Evaluation.thenIf_pure]

theorem perform_comment (text : String) :
    (comment text).perform names ctx = pure .fallsThrough := rfl

theorem perform_control (kind : Control) : (control kind).perform names ctx = kind.run := rfl

theorem perform_write (field : RouteField) (update : Update) :
    (write field update).perform names ctx =
      (Evaluation.write ctx.policy field update >>= fun _ => pure .fallsThrough) := rfl

theorem perform_call {target : Reference} (h : target.link = none) :
    (call target).perform names ctx = ctx.call (target.linkOrKeep names) := by
  cases hlink : target.link? names with
  | none =>
    simp [perform, link?, Reference.linkOrKeep, hlink, Context.call, Context.visit, h]
  | some linked => simp [perform, link?, Reference.linkOrKeep, hlink, run]

theorem perform_setDefaultPolicy (target : Reference) :
    (setDefaultPolicy target).perform names ctx =
      match placeOf names target.name with
      | some id => do
        Evaluation.modify fun env => { env with defaultPolicy := some id }
        pure .fallsThrough
      | none => pure .fallsThrough := by
  cases hp : placeOf names target.name <;>
    simp [perform, link?, Reference.link?, Reference.linked, hp, run]

theorem perform_branch (guard : Condition) (a b : List Statement) :
    (branch guard a b).perform names ctx =
      (guard.holds names ctx >>= fun taken =>
        if taken then performAll names ctx a else performAll names ctx b) := by
  simp [perform, link?, run, Condition.holds, performAll]

end Statement

end RoutePolicy
