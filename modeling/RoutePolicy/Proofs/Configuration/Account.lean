import RoutePolicy.Proofs.Configuration.CompileSound
import RoutePolicy.Proofs.Evaluation.Agreement

/-!
# What a policy statement does to the default action

The direct reading of a policy statement, with an account of the default actions that its clauses
set.  Policies that the statement asks have no part in the account: they may set default actions as
they like, and whatever they do to them is undone.

* `Account`, `Evaluation.followedBy` — accounts, and one after the other;
* `PolicyStatement.account` — the account of a statement, by the levels of the syntax;
* `PolicyStatement.stance_account` — without the default actions it is the reading of the statement;
* `Evaluation.Tallies`, `PolicyStatement.tallies_account` — the last default action of the account
  is the one that is left behind, if any was set; the default policy is never touched.
-/

set_option autoImplicit false

namespace RoutePolicy

open Evaluation (Gives)

/-- How far a policy statement has come with a route, and the default actions that its clauses have
set, in order. -/
structure Account where
  stance : Stance
  defaults : List Action := []
  deriving DecidableEq, Repr

/-- One account after the other, as long as there is no decision. -/
def Evaluation.followedBy (x y : Evaluation Account) : Evaluation Account := do
  let a ← x
  if a.stance = .undecided then do
    let b ← y
    pure { stance := b.stance, defaults := a.defaults ++ b.defaults }
  else pure a

theorem Account.stance_followedBy (x y : Evaluation Account) :
    stance <$> x.followedBy y = (stance <$> x).thenIf .undecided (stance <$> y) := by
  simp only [Evaluation.followedBy, Evaluation.thenIf, map_eq_pure_bind, bind_assoc, pure_bind]
  refine bind_congr fun a => ?_
  split
  · simp only [bind_assoc, pure_bind]
  · rw [pure_bind]

/-! ## Accounts of policy statements -/

namespace ThenClause

/-- The default actions that the control clauses among clauses set, up to one that ends the
policy. -/
def defaultsSet : List ThenClause → List Action
  | [] | .accept :: _ | .reject :: _ | .nextPolicy :: _ => []
  | .defaultAccept :: cs => .accept :: defaultsSet cs
  | .defaultReject :: cs => .reject :: defaultsSet cs
  | _ :: cs => defaultsSet cs

/-- The account of actions. -/
def account (cs : List ThenClause) : Evaluation Account :=
  (fun stance => { stance, defaults := defaultsSet cs }) <$> take cs

theorem stance_account (cs : List ThenClause) : Account.stance <$> account cs = take cs := by
  rw [account, Functor.map_map]
  exact id_map _

end ThenClause

/-- The account of a route filter. -/
def RouteFilter.account (f : RouteFilter) : Evaluation Account := do
  let env ← Evaluation.get
  if f.range.selects env.route.network then ThenClause.account f.actions
  else pure { stance := .undecided }

theorem RouteFilter.stance_account (f : RouteFilter) : Account.stance <$> f.account = f.read := by
  rw [account, read, map_bind]
  refine bind_congr fun env => ?_
  split
  · exact ThenClause.stance_account f.actions
  · exact map_pure _ _

section

variable (lists : PrefixLists) (ask : String → Evaluation Verdict)

namespace Term

/-- The account of the route filters among clauses. -/
def accountFilters : List FromClause → Evaluation Account
  | [] => pure { stance := .undecided }
  | .routeFilter f :: cs => f.account.followedBy (accountFilters cs)
  | _ :: cs => accountFilters cs

theorem stance_accountFilters (cs : List FromClause) :
    Account.stance <$> accountFilters cs = readFilters cs := by
  induction cs with
  | nil => exact map_pure _ _
  | cons c cs ih =>
    cases c with
    | routeFilter f =>
      rw [accountFilters, readFilters, Account.stance_followedBy, f.stance_account, ih]
    | _ => exact ih

/-- The account of a term. -/
def account (t : Term) : Evaluation Account :=
  (accountFilters t.clauses).followedBy do
    if ← t.isMatched lists ask then ThenClause.account t.actions
    else pure { stance := .undecided }

theorem stance_account (t : Term) : Account.stance <$> t.account lists ask = t.read lists ask := by
  rw [account, read, Account.stance_followedBy, stance_accountFilters, map_bind]
  congr 1
  refine bind_congr fun matched => ?_
  cases matched with
  | true => exact ThenClause.stance_account t.actions
  | false => exact map_pure _ _

/-- The account of terms. -/
def accountAll : List Term → Evaluation Account
  | [] => pure { stance := .undecided }
  | t :: ts => (t.account lists ask).followedBy (accountAll ts)

theorem stance_accountAll (ts : List Term) :
    Account.stance <$> accountAll lists ask ts = readAll lists ask ts := by
  induction ts with
  | nil => exact map_pure _ _
  | cons t ts ih => rw [accountAll, readAll, Account.stance_followedBy, t.stance_account, ih]

end Term

/-- The account of a policy statement: its terms, and the default term after them. -/
def PolicyStatement.account (s : PolicyStatement) : Evaluation Account :=
  Term.accountAll lists ask s.allTerms

/-- An account is a reading of the statement that also notes the default actions. -/
theorem PolicyStatement.stance_account (s : PolicyStatement) :
    Account.stance <$> s.account lists ask = s.read lists ask := by
  rw [account, Term.stance_accountAll, readAll_allTerms]

end

/-! ## Evaluations that leave the defaults alone -/

/-- The default action and the default policy are the same. -/
structure Environment.SameDefaults (env after : Environment) : Prop where
  action_eq : after.defaultAction = env.defaultAction
  policy_eq : after.defaultPolicy = env.defaultPolicy

namespace Evaluation

variable {α β : Type}

/-- Wherever the evaluation ends, the defaults are those it started with. -/
def KeepsDefaults (x : Evaluation α) : Prop :=
  ∀ env a after, x.Gives env a after → env.SameDefaults after

namespace KeepsDefaults

variable {x : Evaluation α}

protected theorem pure (a : α) : KeepsDefaults (pure a) := by
  intro env a' after h
  cases h
  exact ⟨rfl, rfl⟩

protected theorem get : KeepsDefaults get := by
  intro env a after h
  cases h
  exact ⟨rfl, rfl⟩

protected theorem report (notices : List Notice) : KeepsDefaults (report notices) := by
  intro env a after h
  cases h
  exact ⟨rfl, rfl⟩

protected theorem modify {f : Environment → Environment}
    (h : ∀ env : Environment, env.SameDefaults (f env)) : KeepsDefaults (modify f) := by
  intro env a after hgives
  cases hgives
  exact h env

protected theorem bind {f : α → Evaluation β} (hx : x.KeepsDefaults)
    (hf : ∀ a, (f a).KeepsDefaults) : (x >>= f).KeepsDefaults := by
  intro env b after h
  obtain ⟨a, mid, hmid, hafter⟩ := h.of_bind
  obtain ⟨haction, hpolicy⟩ := hx env a mid hmid
  obtain ⟨haction', hpolicy'⟩ := hf a mid b after hafter
  exact ⟨haction'.trans haction, hpolicy'.trans hpolicy⟩

end KeepsDefaults

/-- Wherever the evaluation ends, the default policy is the one it started with, and the default
action is the last one of the account, if there is any, and else the one it started with. -/
def Tallies (x : Evaluation Account) : Prop :=
  ∀ env a after, x.Gives env a after →
    after.defaultAction = a.defaults.getLastD env.defaultAction ∧
      after.defaultPolicy = env.defaultPolicy

namespace Tallies

protected theorem pure (stance : Stance) : Tallies (pure { stance }) := by
  intro env a after h
  cases h
  exact ⟨rfl, rfl⟩

protected theorem bind {α : Type} {x : Evaluation α} {f : α → Evaluation Account}
    (hx : x.KeepsDefaults) (hf : ∀ a, (f a).Tallies) : (x >>= f).Tallies := by
  intro env b after h
  obtain ⟨a, mid, hmid, hafter⟩ := h.of_bind
  obtain ⟨haction, hpolicy⟩ := hx env a mid hmid
  obtain ⟨haction', hpolicy'⟩ := hf a mid b after hafter
  rw [haction] at haction'
  exact ⟨haction', hpolicy'.trans hpolicy⟩

theorem followedBy {x y : Evaluation Account} (hx : x.Tallies) (hy : y.Tallies) :
    (x.followedBy y).Tallies := by
  intro env c after h
  obtain ⟨a, mid, hmid, hrest⟩ := Gives.of_bind h
  obtain ⟨haction, hpolicy⟩ := hx env a mid hmid
  split at hrest
  · obtain ⟨b, last, hlast, hend⟩ := hrest.of_bind
    obtain ⟨haction', hpolicy'⟩ := hy mid b last hlast
    cases hend
    refine ⟨?_, hpolicy'.trans hpolicy⟩
    rw [haction', haction]
    simp only [List.getLastD_eq_getLast?, List.getLast?_append]
    cases b.defaults.getLast? <;> rfl
  · cases hrest
    exact ⟨haction, hpolicy⟩

end Tallies

end Evaluation

open Evaluation (KeepsDefaults Tallies)

/-! ## Asking and matching -/

/-- Where a policy is not run, nothing happens. -/
theorem Table.unchanged_of_visit {t : Table} {s : Settings} {stack : List PolicyId}
    {policy : String} {r : Reference} {env after : Environment} {entry : Entry}
    (h : ((t.context s stack policy).visit r).Gives env entry after) :
    after = env ∨ ∃ callee flow, entry = .ran callee flow := by
  unfold Context.visit at h
  cases hlink : r.link with
  | none =>
    rw [hlink] at h
    cases h
    exact .inl rfl
  | some id =>
    rw [hlink] at h
    change (t.enter s stack policy id).Gives env entry after at h
    unfold enter at h
    cases hg : t.get? id with
    | none =>
      rw [hg] at h
      cases h
      exact .inl rfl
    | some p =>
      simp only [hg] at h
      split at h
      · cases h
        exact .inl rfl
      · split at h
        · cases h
          exact .inl rfl
        · obtain ⟨flow, mid, -, hend⟩ := h.of_bind
          cases hend
          exact .inr ⟨p.name, flow, rfl⟩

/-- Asking a policy of a table leaves the defaults alone, whatever the policy does to them. -/
theorem Table.keepsDefaults_ask (t : Table) (s : Settings) (stack : List PolicyId) (policy : String)
    (r : Reference) : ((t.context s stack policy).ask r).KeepsDefaults := by
  intro env v after h
  obtain ⟨before, start, hbefore, hrest⟩ := h.of_bind
  cases hbefore
  obtain ⟨entry, mid, hvisit, hend⟩ := hrest.of_bind
  cases entry with
  | ran callee flow =>
    cases hend
    exact ⟨rfl, rfl⟩
  | absent =>
    cases hend
    rcases unchanged_of_visit hvisit with rfl | ⟨callee, flow, hran⟩
    · exact ⟨rfl, rfl⟩
    · cases hran
  | refused =>
    cases hend
    rcases unchanged_of_visit hvisit with rfl | ⟨callee, flow, hran⟩
    · exact ⟨rfl, rfl⟩
    · cases hran

namespace ThenClause

theorem keepsDefaults_writeAll (cs : List ThenClause) : (writeAll cs).KeepsDefaults := by
  induction cs with
  | nil => exact .pure ()
  | cons c cs ih =>
    have hwrite : c.write.KeepsDefaults := .modify fun env => by cases c <;> exact ⟨rfl, rfl⟩
    exact hwrite.bind fun _ => ih

/-- Control clauses leave the last default action behind that they set. -/
theorem defaults_of_control {cs : List ThenClause} {env after : Environment} {stance : Stance}
    (h : (control cs).Gives env stance after) :
    after.defaultAction = (defaultsSet cs).getLastD env.defaultAction ∧
      after.defaultPolicy = env.defaultPolicy := by
  induction cs generalizing env with
  | nil => cases h; exact ⟨rfl, rfl⟩
  | cons c cs ih =>
    cases c with
    | accept => cases h; exact ⟨rfl, rfl⟩
    | reject => cases h; exact ⟨rfl, rfl⟩
    | nextPolicy => cases h; exact ⟨rfl, rfl⟩
    | defaultAccept =>
      obtain ⟨_, mid, hset, hrest⟩ := Gives.of_bind h
      cases hset
      rw [defaultsSet, List.getLastD_cons]
      exact ih hrest
    | defaultReject =>
      obtain ⟨_, mid, hset, hrest⟩ := Gives.of_bind h
      cases hset
      rw [defaultsSet, List.getLastD_cons]
      exact ih hrest
    | _ => exact ih h

theorem tallies_account (cs : List ThenClause) : (account cs).Tallies := by
  intro env a after h
  rw [account, map_eq_pure_bind] at h
  obtain ⟨stance, last, htake, hend⟩ := h.of_bind
  obtain ⟨_, mid, hwrites, hcontrol⟩ := htake.of_bind
  cases hend
  obtain ⟨haction, hpolicy⟩ := keepsDefaults_writeAll cs env () mid hwrites
  obtain ⟨haction', hpolicy'⟩ := defaults_of_control hcontrol
  rw [haction] at haction'
  exact ⟨haction', hpolicy'.trans hpolicy⟩

end ThenClause

theorem RouteFilter.tallies_account (f : RouteFilter) : f.account.Tallies := by
  refine .bind .get fun env => ?_
  split
  · exact ThenClause.tallies_account f.actions
  · exact .pure _

section

variable (lists : PrefixLists) {ask : String → Evaluation Verdict}

theorem keepsDefaults_allMatched (hask : ∀ name, (ask name).KeepsDefaults) (names : List String) :
    (allMatched ask names).KeepsDefaults := by
  induction names with
  | nil => exact .pure true
  | cons name names ih =>
    refine (hask name).bind fun v => ?_
    rcases v with (_ | _) | _
    · exact .pure false
    · exact ih
    · exact .pure false

theorem keepsDefaults_firstMatched (hask : ∀ name, (ask name).KeepsDefaults)
    (names : List String) : (firstMatched ask names).KeepsDefaults := by
  induction names with
  | nil => exact .pure false
  | cons name names ih =>
    refine (hask name).bind fun v => ?_
    cases v with
    | matched b => exact .pure b
    | unmatched => exact ih

namespace Term

theorem keepsDefaults_isMatched (hask : ∀ name, (ask name).KeepsDefaults) (t : Term) :
    (t.isMatched lists ask).KeepsDefaults := by
  have hconjunction : (t.conjunctionHolds ask).KeepsDefaults := by
    unfold conjunctionHolds
    split
    · exact .pure true
    · exact .pure false
    · exact keepsDefaults_allMatched hask _
  have hchain : (t.chainHolds ask).KeepsDefaults := by
    unfold chainHolds
    split
    · exact .pure true
    · exact keepsDefaults_firstMatched hask _
  exact KeepsDefaults.get.bind fun _ => hconjunction.bind fun _ => hchain.bind fun _ => .pure _

theorem tallies_accountFilters (cs : List FromClause) : (accountFilters cs).Tallies := by
  induction cs with
  | nil => exact .pure _
  | cons c cs ih =>
    cases c with
    | routeFilter f => exact f.tallies_account.followedBy ih
    | _ => exact ih

theorem tallies_account (hask : ∀ name, (ask name).KeepsDefaults) (t : Term) :
    (t.account lists ask).Tallies := by
  refine (tallies_accountFilters t.clauses).followedBy ?_
  refine .bind (t.keepsDefaults_isMatched lists hask) fun matched => ?_
  cases matched with
  | true => exact ThenClause.tallies_account t.actions
  | false => exact .pure _

theorem tallies_accountAll (hask : ∀ name, (ask name).KeepsDefaults) (ts : List Term) :
    (accountAll lists ask ts).Tallies := by
  induction ts with
  | nil => exact .pure _
  | cons t ts ih => exact (t.tallies_account lists hask).followedBy ih

end Term

/-- **A policy statement leaves the last default action behind that its own clauses set**, and the
default policy as it was, when the policies that it asks leave both alone. -/
theorem PolicyStatement.tallies_account (hask : ∀ name, (ask name).KeepsDefaults)
    (s : PolicyStatement) : (s.account lists ask).Tallies :=
  Term.tallies_accountAll lists hask s.allTerms

end

end RoutePolicy
