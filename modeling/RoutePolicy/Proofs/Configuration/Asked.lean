import RoutePolicy.Proofs.Configuration.CompileSound
import RoutePolicy.Proofs.Evaluation.Agreement

/-!
# What the reading of a policy statement depends on

A policy statement does the same to a route wherever it is read, as long as the policies that it
asks do.

* `PolicyStatement.Asks` — the policies that a statement names in its clauses;
* `ThenClause.agree_take`, `RouteFilter.agree_read` — actions, which depend on nothing;
* `Term.agree_isMatched`, `Term.agree_read` — terms, from the policies that they ask;
* `PolicyStatement.agree_read` — whole statements.
-/

set_option autoImplicit false

namespace RoutePolicy

open Evaluation (Agree)

/-- A clause of the term names the policy. -/
def Term.Asks (t : Term) (name : String) : Prop := ∃ c ∈ t.clauses, name ∈ c.policies

/-- A term of the statement names the policy. -/
def PolicyStatement.Asks (s : PolicyStatement) (name : String) : Prop :=
  ∃ t ∈ s.allTerms, t.Asks name

/-! ## Actions -/

namespace ThenClause

theorem agree_write (c : ThenClause) : Agree c.write c.write := by
  refine .modify (fun env env' h => ?_) fun env => ?_
  · obtain ⟨hroute, hoverlay⟩ := h
    cases c <;> constructor <;> simp [field?, rewrite, hroute, hoverlay]
  · cases c <;> constructor <;> rfl

theorem agree_writeAll (cs : List ThenClause) : Agree (writeAll cs) (writeAll cs) := by
  induction cs with
  | nil => exact .pure ()
  | cons c cs ih =>
    rw [writeAll]
    exact c.agree_write.bind fun _ => ih

theorem agree_setDefaultAction (action : Action) :
    Agree (Evaluation.modify fun env => { env with defaultAction := action })
      (Evaluation.modify fun env => { env with defaultAction := action }) :=
  .modify (fun _ _ h => ⟨h.route_eq, h.overlay_eq⟩) fun _ => ⟨rfl, rfl⟩

theorem agree_control (cs : List ThenClause) : Agree (control cs) (control cs) := by
  induction cs with
  | nil => exact .pure _
  | cons c cs ih =>
    cases c with
    | accept => exact .pure _
    | reject => exact .pure _
    | nextPolicy => exact .pure _
    | defaultAccept => exact (agree_setDefaultAction .accept).bind fun _ => ih
    | defaultReject => exact (agree_setDefaultAction .reject).bind fun _ => ih
    | _ => exact ih

theorem agree_take (cs : List ThenClause) : Agree (take cs) (take cs) :=
  (agree_writeAll cs).bind fun _ => agree_control cs

end ThenClause

theorem RouteFilter.agree_read (f : RouteFilter) : Agree f.read f.read := by
  refine .get_bind fun env env' h => ?_
  rw [h.route_eq]
  split
  · exact ThenClause.agree_take f.actions
  · exact .pure _

/-! ## Terms -/

section

variable (lists : PrefixLists) {ask ask' : String → Evaluation Verdict}

theorem agree_allMatched {names : List String} (h : ∀ name ∈ names, Agree (ask name) (ask' name)) :
    Agree (allMatched ask names) (allMatched ask' names) := by
  induction names with
  | nil => exact .pure true
  | cons name names ih =>
    obtain ⟨hname, hnames⟩ := List.forall_mem_cons.mp h
    refine hname.bind fun v => ?_
    rcases v with (_ | _) | _
    · exact .pure false
    · exact ih hnames
    · exact .pure false

theorem agree_firstMatched {names : List String}
    (h : ∀ name ∈ names, Agree (ask name) (ask' name)) :
    Agree (firstMatched ask names) (firstMatched ask' names) := by
  induction names with
  | nil => exact .pure false
  | cons name names ih =>
    obtain ⟨hname, hnames⟩ := List.forall_mem_cons.mp h
    refine hname.bind fun v => ?_
    cases v with
    | matched b => exact .pure b
    | unmatched => exact ih hnames

theorem mem_of_namesOf? {pick : FromClause → Option (List String)}
    (hpick : ∀ c names, pick c = some names → c.policies = names) {clauses : List FromClause}
    {names : List String} (h : namesOf? pick clauses = some names) {name : String}
    (hname : name ∈ names) : ∃ c ∈ clauses, name ∈ c.policies := by
  unfold namesOf? at h
  split at h
  · cases h
  · rw [Option.some.injEq] at h
    subst h
    obtain ⟨group, hgroup, hmem⟩ := List.mem_flatten.mp hname
    obtain ⟨c, hc, hsome⟩ := List.mem_filterMap.mp hgroup
    exact ⟨c, hc, hpick c group hsome ▸ hmem⟩

namespace Term

variable {t : Term}

theorem agree_conjunctionHolds (h : ∀ name, t.Asks name → Agree (ask name) (ask' name)) :
    Agree (t.conjunctionHolds ask) (t.conjunctionHolds ask') := by
  have hpick : ∀ (c : FromClause) names, c.conjunction? = some names → c.policies = names := by
    intro c names hsome
    cases c <;> cases hsome
    rfl
  unfold conjunctionHolds
  cases hnames : namesOf? FromClause.conjunction? t.clauses with
  | none => exact .pure true
  | some names =>
    cases names with
    | nil => exact .pure false
    | cons name names =>
      exact agree_allMatched fun n hn => h n (mem_of_namesOf? hpick hnames hn)

theorem agree_chainHolds (h : ∀ name, t.Asks name → Agree (ask name) (ask' name)) :
    Agree (t.chainHolds ask) (t.chainHolds ask') := by
  have hpick : ∀ (c : FromClause) names, c.chain? = some names → c.policies = names := by
    intro c names hsome
    cases c <;> cases hsome
    rfl
  unfold chainHolds
  cases hnames : namesOf? FromClause.chain? t.clauses with
  | none => exact .pure true
  | some names => exact agree_firstMatched fun n hn => h n (mem_of_namesOf? hpick hnames hn)

theorem agree_isMatched (h : ∀ name, t.Asks name → Agree (ask name) (ask' name)) :
    Agree (t.isMatched lists ask) (t.isMatched lists ask') := by
  refine .get_bind fun env env' halike => ?_
  rw [halike.route_eq]
  refine (agree_conjunctionHolds h).bind fun policies => ?_
  exact (agree_chainHolds h).bind fun chain => .pure _

theorem agree_readFilters (cs : List FromClause) : Agree (readFilters cs) (readFilters cs) := by
  induction cs with
  | nil => exact .pure _
  | cons c cs ih =>
    cases c with
    | routeFilter f => exact f.agree_read.thenIf ih
    | _ => exact ih

theorem agree_read (h : ∀ name, t.Asks name → Agree (ask name) (ask' name)) :
    Agree (t.read lists ask) (t.read lists ask') := by
  refine (agree_readFilters t.clauses).thenIf ?_
  refine (agree_isMatched lists h).bind fun matched => ?_
  cases matched with
  | true => exact ThenClause.agree_take t.actions
  | false => exact .pure _

theorem agree_readAll {ts : List Term}
    (h : ∀ t ∈ ts, ∀ name, t.Asks name → Agree (ask name) (ask' name)) :
    Agree (readAll lists ask ts) (readAll lists ask' ts) := by
  induction ts with
  | nil => exact .pure _
  | cons t ts ih =>
    obtain ⟨ht, hts⟩ := List.forall_mem_cons.mp h
    exact (agree_read lists ht).thenIf (ih hts)

end Term

/-- **Readings of a statement agree** when the answers of the policies that it asks do. -/
theorem PolicyStatement.agree_read {s : PolicyStatement}
    (h : ∀ name, s.Asks name → Agree (ask name) (ask' name)) :
    Agree (s.read lists ask) (s.read lists ask') := by
  rw [← readAll_allTerms, ← readAll_allTerms]
  exact Term.agree_readAll lists fun t ht name hname => h name ⟨t, ht, hname⟩

end

end RoutePolicy
