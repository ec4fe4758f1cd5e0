import RoutePolicy.Proofs.Evaluation.Agreement

/-!
# Chains of policies can be split

Both kinds of chains ask their members in order and stop at the first one that settles them.  So a
chain is the chain of its first members and, where these leave it open, the chain of the others.
What stands behind the member that settles a chain is never asked.

The two kinds differ where there are no members.  A chain for the first definite verdict is open
then, which makes it a unit.  A chain whose members must all match is false then, so that it can
only be split into two parts that both have members.

* `Evaluation.thenIf_of_settled` — what does not end in the value to go on with is all there is;
* `Context.askFirst_append`, `Context.askAll_append` — the members of chains;
* `Condition.judge_firstMatch_append`, `Condition.judge_allMatch_append` — chains;
* `Condition.judge_chains` — both kinds, and what follows for members behind a settled one.
-/

set_option autoImplicit false

namespace RoutePolicy

open Evaluation (Gives)

namespace Evaluation

variable {α : Type} [DecidableEq α]

/-- An evaluation that fails, or ends in another value than the one to go on with, is not followed
by anything. -/
theorem thenIf_of_settled {x : Evaluation α} {go : α} {env : Environment}
    (h : ∀ after, ¬ x.Gives env go after) (y : Evaluation α) : x.thenIf go y env = x env := by
  unfold Gives at h
  rw [thenIf, bind_apply]
  rcases hrun : x env with ⟨notices, e | ⟨a, after⟩⟩
  · rfl
  · have hne : a ≠ go := by
      rintro rfl
      exact h after (by rw [hrun])
    simp only [if_neg hne, pure_apply, List.append_nil]

end Evaluation

namespace Context

variable (ctx : Context)

theorem askFirst_append (rs ss : List Reference) :
    ctx.askFirst (rs ++ ss) = (ctx.askFirst rs).thenIf .unmatched (ctx.askFirst ss) := by
  induction rs with
  | nil => exact (Evaluation.pure_thenIf _ _).symm
  | cons r rs ih =>
    rw [List.cons_append, askFirst, askFirst, Evaluation.bind_thenIf]
    refine bind_congr fun v => ?_
    cases v with
    | matched b => exact (Evaluation.pure_thenIf_of_ne (by simp) _).symm
    | unmatched => exact ih

theorem askAll_append (rs ss : List Reference) :
    ctx.askAll (rs ++ ss) = (ctx.askAll rs).thenIf true (ctx.askAll ss) := by
  induction rs with
  | nil => exact (Evaluation.pure_thenIf _ _).symm
  | cons r rs ih =>
    rw [List.cons_append, askAll, askAll, Evaluation.bind_thenIf]
    refine bind_congr fun v => ?_
    split
    · exact ih
    · exact (Evaluation.pure_thenIf_of_ne Bool.false_ne_true _).symm

end Context

namespace Condition

variable (ctx : Context)

/-- The first members of a chain come first; the others are asked when none of these decides. -/
theorem judge_firstMatch_append (rs ss : List Reference) :
    (firstMatch (rs ++ ss)).judge ctx =
      ((firstMatch rs).judge ctx).thenIf .unmatched ((firstMatch ss).judge ctx) := by
  simp only [judge]
  exact ctx.askFirst_append rs ss

theorem judge_allMatch_of_ne_nil {rs : List Reference} (h : rs ≠ []) :
    (allMatch rs).judge ctx = Verdict.matched <$> ctx.askAll rs := by
  rw [judge, if_neg (by rwa [List.isEmpty_iff]), map_eq_pure_bind]

/-- The first members of a chain come first; the others are asked when these all match. -/
theorem judge_allMatch_append {rs ss : List Reference} (hrs : rs ≠ []) (hss : ss ≠ []) :
    (allMatch (rs ++ ss)).judge ctx =
      ((allMatch rs).judge ctx).thenIf (.matched true) ((allMatch ss).judge ctx) := by
  have hmatched : ∀ b : Bool, Verdict.matched b = .matched true → b = true := by simp
  rw [judge_allMatch_of_ne_nil ctx hrs, judge_allMatch_of_ne_nil ctx hss,
    judge_allMatch_of_ne_nil ctx (List.append_ne_nil_of_left_ne_nil hrs ss), ctx.askAll_append,
    Evaluation.map_thenIf hmatched]

/-- **Chains can be split, and stop where they are settled.**  In every context, so under every stack
of callers in every frozen table, and whatever the members do when they are asked, a chain for the
first definite verdict is the chain of its first members and then, only where that is open, the
chain of the others; a chain whose members must all match is the chain of its first members and
then, only where that is true, the chain of the others, as long as both have members.  They give the
same verdict or failure, the same environment and the same notices.  So where the first members have
settled a chain, other members in the place of those behind them change nothing. -/
theorem judge_chains (rs ss : List Reference) :
    (firstMatch (rs ++ ss)).judge ctx =
      ((firstMatch rs).judge ctx).thenIf .unmatched ((firstMatch ss).judge ctx) ∧
    (rs ≠ [] → ss ≠ [] → (allMatch (rs ++ ss)).judge ctx =
      ((allMatch rs).judge ctx).thenIf (.matched true) ((allMatch ss).judge ctx)) ∧
    (∀ env, (∀ after, ¬ ((firstMatch rs).judge ctx).Gives env .unmatched after) →
      ∀ others, (firstMatch (rs ++ others)).judge ctx env = (firstMatch (rs ++ ss)).judge ctx env) ∧
    (rs ≠ [] → ∀ env, (∀ after, ¬ ((allMatch rs).judge ctx).Gives env (.matched true) after) →
      ∀ others, (allMatch (rs ++ others)).judge ctx env = (allMatch (rs ++ ss)).judge ctx env) := by
  refine ⟨judge_firstMatch_append ctx rs ss, judge_allMatch_append ctx, ?_, ?_⟩
  · intro env hsettled others
    have hlater : ∀ later,
        (firstMatch (rs ++ later)).judge ctx env = (firstMatch rs).judge ctx env := fun later => by
      rw [judge_firstMatch_append, Evaluation.thenIf_of_settled hsettled]
    exact (hlater others).trans (hlater ss).symm
  · intro hrs env hsettled others
    have hlater : ∀ later,
        (allMatch (rs ++ later)).judge ctx env = (allMatch rs).judge ctx env := fun later => by
      by_cases hnil : later = []
      · rw [hnil, List.append_nil]
      · rw [judge_allMatch_append ctx hrs hnil, Evaluation.thenIf_of_settled hsettled]
    exact (hlater others).trans (hlater ss).symm

/-- A chain of a policy that writes and leaves the route open and of one that writes and rejects,
asked on behalf of a third one.  The first member settles one kind of chain and the second one the
other kind, so that the third policy may stand behind them, although it is running already. -/
theorem judge_chains_settled :
    let t : Table :=
      { policies := [
          { name := "a", statements := [.set .tag (.number 7)] },
          { name := "b", statements := [.set .metric (.number 5), .control .exitReject] },
          { name := "c", statements := [] }]
        ascending := by decide }
    let a : Reference := { name := "a", link := some ⟨0⟩ }
    let b : Reference := { name := "b", link := some ⟨1⟩ }
    let c : Reference := { name := "c", link := some ⟨2⟩ }
    let ctx := t.context {} [⟨2⟩] "c"
    let env := Table.startOf {}
    (∀ after, ¬ ((firstMatch [a, b]).judge ctx).Gives env .unmatched after) ∧
      (∀ after, ¬ ((allMatch [a]).judge ctx).Gives env (.matched true) after) ∧
      (firstMatch ([a, b] ++ [c])).judge ctx env = (firstMatch ([a, b] ++ [])).judge ctx env ∧
      (allMatch ([a] ++ [c])).judge ctx env = (allMatch ([a] ++ [b])).judge ctx env := by
  intro t a b c ctx env
  have hask : ∀ (id : PolicyId) (p : Policy) (ref : Reference) (flow : Flow),
      ref.link = some id → t.get? id = some p → id ∉ [⟨2⟩] →
      (∀ before, ∃ after, (t.runPolicy {} [⟨2⟩, id] p).Gives before flow after) →
        ∀ before, ∃ after, (ctx.ask ref).Gives before flow.verdict after := by
    intro id p ref flow hlink hg hfresh hrun before
    obtain ⟨after, hafter⟩ := hrun before
    exact ⟨_, Context.gives_ask (Table.gives_visit "c" ref hlink hg hfresh (by decide) hafter)⟩
  have ha := hask ⟨0⟩ _ a .fallsThrough rfl rfl (by decide) fun before =>
    ⟨_, by rw [Table.runPolicy_eq]; rfl⟩
  have hb := hask ⟨1⟩ _ b (.exits .reject) rfl rfl (by decide) fun before =>
    ⟨_, by rw [Table.runPolicy_eq]; rfl⟩
  obtain ⟨mid, hmid⟩ := ha env
  obtain ⟨last, hlast⟩ := hb mid
  have hfirst : ((firstMatch [a, b]).judge ctx).Gives env (.matched false) last :=
    hmid.bind (hlast.bind (.pure _ _))
  have hall : ((allMatch [a]).judge ctx).Gives env (.matched false) mid := by
    have hasked : (ctx.askAll [a]).Gives env false mid := hmid.bind (.pure _ _)
    rw [judge_allMatch_of_ne_nil ctx (List.cons_ne_nil a [])]
    exact hasked.map _
  have hrejected : ∀ after, ¬ ((firstMatch [a, b]).judge ctx).Gives env .unmatched after :=
    fun after h => by cases h.value_unique hfirst
  have hopen : ∀ after, ¬ ((allMatch [a]).judge ctx).Gives env (.matched true) after :=
    fun after h => by cases h.value_unique hall
  obtain ⟨-, -, hfirstMatch, -⟩ := judge_chains ctx [a, b] []
  obtain ⟨-, -, -, hallMatch⟩ := judge_chains ctx [a] [b]
  exact ⟨hrejected, hopen, hfirstMatch env hrejected [c],
    hallMatch (List.cons_ne_nil a []) env hopen [c]⟩

end Condition

end RoutePolicy
