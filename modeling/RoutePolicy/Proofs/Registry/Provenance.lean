import RoutePolicy.Proofs.Registry.Linking
import RoutePolicy.Proofs.Table.Edges
import Mathlib.Logic.Relation

/-!
# Provenance is reachability

The sources of a policy are found by a search in rounds, against the direction of the calls.  The
search is sound and complete: it finds the user policies from which the policy can be reached over
calls that are made by user policies only.

* `Caller.Reaches`, `Caller.mem_reachingFrom_iff` — what the rounds of the search find;
* `Table.UserCalls` — the calls that the search follows;
* `Table.mem_sourcesReaching_iff` — the sources in terms of paths;
* `Registry.refers_iff`, `Registry.userCalls_table_iff` — the calls of a frozen table in terms of its
  registry;
* `Registry.freeze_sources` — the sources that a freeze stores, which do not depend on those that
  the policies came with;
* `Registry.freeze_sources_stray` — what a stray link adds to them.
-/

set_option autoImplicit false

namespace RoutePolicy

/-! ## Rounds of the search -/

namespace Caller

variable {callers : List Caller} {frontier : List PolicyId} {c d : Caller}

theorem calls_iff : c.calls frontier = true ↔ ∃ id ∈ c.callees, id ∈ frontier := by
  simp only [calls, List.any_eq_true, List.contains_iff_mem]

theorem calls_of_mem (hcalls : c.calls [d.id] = true) (hd : d.id ∈ frontier) :
    c.calls frontier = true := by
  obtain ⟨id, hid, heq⟩ := calls_iff.mp hcalls
  exact calls_iff.mpr ⟨id, hid, List.mem_singleton.mp heq ▸ hd⟩

/-- One of the callers reaches a place of the frontier, all the way through the callers. -/
inductive Reaches (callers : List Caller) (frontier : List PolicyId) : Caller → Prop where
  | direct {c : Caller} (mem : c ∈ callers) (calls : c.calls frontier = true) :
      Reaches callers frontier c
  | through {c d : Caller} (mem : c ∈ callers) (calls : c.calls [d.id] = true)
      (reached : Reaches callers frontier d) : Reaches callers frontier c

theorem Reaches.mem (h : Reaches callers frontier c) : c ∈ callers := by
  cases h <;> assumption

theorem not_reaches_nil : ¬ Reaches callers [] c := by
  intro h
  induction h with
  | direct _ hcalls =>
    obtain ⟨_, _, hid⟩ := calls_iff.mp hcalls
    cases hid
  | through _ _ _ ih => exact ih

/-- A round of the search: the callers that reach the frontier are those that call it, and those of
the others that reach these. -/
theorem reaches_iff :
    Reaches callers frontier c ↔
      c ∈ callers.filter (·.calls frontier) ∨
        Reaches (callers.filter (!·.calls frontier))
          ((callers.filter (·.calls frontier)).map (·.id)) c := by
  constructor
  · intro h
    induction h with
    | direct hmem hcalls => exact .inl (List.mem_filter.mpr ⟨hmem, hcalls⟩)
    | @through c d hmem hcalls _ ih =>
      by_cases hfound : c.calls frontier = true
      · exact .inl (List.mem_filter.mpr ⟨hmem, hfound⟩)
      · have hrest : c ∈ callers.filter (!·.calls frontier) :=
          List.mem_filter.mpr ⟨hmem, by simpa using hfound⟩
        rcases ih with hd | hd
        · exact .inr (.direct hrest (calls_of_mem hcalls (List.mem_map_of_mem hd)))
        · exact .inr (.through hrest hcalls hd)
  · rintro (h | h)
    · obtain ⟨hmem, hcalls⟩ := List.mem_filter.mp h
      exact .direct hmem hcalls
    · induction h with
      | direct hmem hcalls =>
        obtain ⟨id, hid, hfound⟩ := calls_iff.mp hcalls
        obtain ⟨d, hd, rfl⟩ := List.mem_map.mp hfound
        obtain ⟨hdmem, hdcalls⟩ := List.mem_filter.mp hd
        exact .through (List.mem_filter.mp hmem).1
          (calls_iff.mpr ⟨d.id, hid, List.mem_singleton_self d.id⟩) (.direct hdmem hdcalls)
      | through hmem hcalls _ ih => exact .through (List.mem_filter.mp hmem).1 hcalls ih

/-- As many rounds as there are callers are enough. -/
theorem mem_reachingFrom_iff {rounds : Nat} (hrounds : callers.length ≤ rounds) :
    c ∈ reachingFrom rounds callers frontier ↔ Reaches callers frontier c := by
  induction rounds generalizing callers frontier with
  | zero =>
    obtain rfl := List.length_eq_zero_iff.mp (Nat.le_zero.mp hrounds)
    exact ⟨fun h => (List.not_mem_nil h).elim, fun h => h.mem⟩
  | succ rounds ih =>
    rw [reaches_iff, reachingFrom]
    split
    · rename_i hnone
      rw [hnone]
      simp only [List.not_mem_nil, List.map_nil, not_reaches_nil, or_false]
    · rename_i hsome
      -- the round found a caller, so that fewer are left
      obtain ⟨d, hd⟩ := List.exists_mem_of_ne_nil _ hsome
      obtain ⟨hmem, hcalls⟩ := List.mem_filter.mp hd
      have hless : (callers.filter (!·.calls frontier)).length < callers.length :=
        List.length_filter_lt_length_iff_exists.mpr ⟨d, hmem, by simp [hcalls]⟩
      rw [List.mem_append, ih (by omega)]

end Caller

/-! ## Paths in a table -/

namespace Table

variable {t : Table}

/-- The policy at `i` was written by a user and can call the one at `j`. -/
def UserCalls (t : Table) (i j : PolicyId) : Prop :=
  (∃ p, t.get? i = some p ∧ p.isDerived = false) ∧ t.Calls i j

/-- The user policies of a table, in the view of the search. -/
def users (t : Table) : List Caller := (callersOf t.policies).filter (!·.isDerived)

theorem mem_users_iff {c : Caller} :
    c ∈ t.users ↔ ∃ p, t.get? c.id = some p ∧ p.isDerived = false ∧
      c = ⟨c.id, p.name, p.isDerived, Statement.calleesAll p.statements⟩ := by
  rw [users, List.mem_filter, callersOf, List.mem_mapIdx]
  constructor
  · rintro ⟨⟨i, hi, rfl⟩, huser⟩
    exact ⟨t.policies[i], List.getElem?_eq_getElem hi, by simpa using huser, rfl⟩
  · obtain ⟨⟨i⟩, name, isDerived, callees⟩ := c
    rintro ⟨p, hp, huser, heq⟩
    obtain ⟨hi, hget⟩ : ∃ hi : i < t.policies.length, t.policies[i] = p :=
      List.getElem?_eq_some_iff.mp hp
    subst hget
    rw [heq]
    exact ⟨⟨i, hi, rfl⟩, by simpa using huser⟩

theorem userCalls_iff {i j : PolicyId} :
    t.UserCalls i j ↔ ∃ c ∈ t.users, c.id = i ∧ j ∈ c.callees := by
  constructor
  · rintro ⟨⟨p, hp, huser⟩, hcalls⟩
    obtain ⟨p', hp', hj⟩ := calls_iff.mp hcalls
    rw [hp] at hp'
    cases hp'
    exact ⟨⟨i, p.name, p.isDerived, Statement.calleesAll p.statements⟩,
      mem_users_iff.mpr ⟨p, hp, huser, rfl⟩, rfl, hj⟩
  · rintro ⟨c, hc, rfl, hj⟩
    obtain ⟨p, hp, huser, heq⟩ := mem_users_iff.mp hc
    rw [heq] at hj
    exact ⟨⟨p, hp, huser⟩, calls_iff.mpr ⟨p, hp, hj⟩⟩

theorem path_of_reaches {c : Caller} {target : PolicyId} {others : List Caller}
    (hothers : ∀ c ∈ others, c ∈ t.users) (h : Caller.Reaches others [target] c) :
    Relation.ReflTransGen t.UserCalls c.id target := by
  induction h with
  | @direct c hmem hcalls =>
    obtain ⟨id, hid, heq⟩ := Caller.calls_iff.mp hcalls
    cases List.mem_singleton.mp heq
    exact .single (userCalls_iff.mpr ⟨c, hothers c hmem, rfl, hid⟩)
  | @through c d hmem hcalls _ ih =>
    obtain ⟨id, hid, heq⟩ := Caller.calls_iff.mp hcalls
    cases List.mem_singleton.mp heq
    exact .head (userCalls_iff.mpr ⟨c, hothers c hmem, rfl, hid⟩) ih

/-- The search leaves the target out of the callers.  It may, since a path can be cut where it comes
to the target for the first time. -/
theorem exists_reaches_of_path {i target : PolicyId}
    (h : Relation.ReflTransGen t.UserCalls i target) :
    i = target ∨
      ∃ c, c.id = i ∧ Caller.Reaches (t.users.filter (·.id != target)) [target] c := by
  induction h using Relation.ReflTransGen.head_induction_on with
  | refl => exact .inl rfl
  | @head i j hij _ ih =>
    by_cases htarget : i = target
    · exact .inl htarget
    obtain ⟨c, hc, rfl, hj⟩ := userCalls_iff.mp hij
    have hother : c ∈ t.users.filter (·.id != target) :=
      List.mem_filter.mpr ⟨hc, by simpa using htarget⟩
    have hcalls : c.calls [j] = true :=
      Caller.calls_iff.mpr ⟨j, hj, List.mem_singleton_self j⟩
    rcases ih with rfl | ⟨d, rfl, hd⟩
    · exact .inr ⟨c, rfl, .direct hother hcalls⟩
    · exact .inr ⟨c, rfl, .through hother hcalls hd⟩

theorem mem_sourcesOf_iff {target : PolicyId} {user : String} :
    user ∈ sourcesOf (callersOf t.policies) target ↔
      ∃ i p, t.get? i = some p ∧ p.name = user ∧ p.isDerived = false ∧
        Relation.ReflTransGen t.UserCalls i target := by
  have hsearch : user ∈ sourcesOf (callersOf t.policies) target ↔
      ∃ c ∈ t.users, c.name = user ∧
        (c.id = target ∨ Caller.Reaches (t.users.filter (·.id != target)) [target] c) := by
    have hsources : sourcesOf (callersOf t.policies) target =
        .ofList ((t.users.filter (·.id == target) ++
          reachingFrom (t.users.filter (·.id != target)).length
            (t.users.filter (·.id != target)) [target]).map (·.name)) := rfl
    rw [hsources, SortedSet.mem_ofList]
    simp only [List.mem_map, List.mem_append, Caller.mem_reachingFrom_iff (Nat.le_refl _),
      List.mem_filter (p := fun c : Caller => c.id == target), beq_iff_eq]
    constructor
    · rintro ⟨c, ⟨hc, htarget⟩ | hc, hname⟩
      · exact ⟨c, hc, hname, .inl htarget⟩
      · exact ⟨c, (List.mem_filter.mp hc.mem).1, hname, .inr hc⟩
    · rintro ⟨c, hc, hname, htarget | hreaches⟩
      · exact ⟨c, .inl ⟨hc, htarget⟩, hname⟩
      · exact ⟨c, .inr hreaches, hname⟩
  rw [hsearch]
  constructor
  · rintro ⟨c, hc, rfl, hfound⟩
    obtain ⟨p, hp, huser, heq⟩ := mem_users_iff.mp hc
    refine ⟨c.id, p, hp, (congrArg Caller.name heq).symm, huser, ?_⟩
    rcases hfound with rfl | hreaches
    · exact .refl
    · exact path_of_reaches (fun c hc => (List.mem_filter.mp hc).1) hreaches
  · rintro ⟨i, p, hp, rfl, huser, hpath⟩
    let c : Caller := ⟨i, p.name, p.isDerived, Statement.calleesAll p.statements⟩
    have hc : c ∈ t.users := mem_users_iff.mpr ⟨p, hp, huser, rfl⟩
    rcases exists_reaches_of_path hpath with htarget | ⟨d, hd, hreaches⟩
    · exact ⟨c, hc, rfl, .inl htarget⟩
    · obtain ⟨p', hp', -, heq⟩ := mem_users_iff.mp (List.mem_filter.mp hreaches.mem).1
      rw [hd, hp] at hp'
      cases hp'
      rw [hd] at heq
      have hsame : d = c := heq
      exact ⟨c, hc, rfl, .inr (hsame ▸ hreaches)⟩

/-- The sources of a policy are the user policies from which it can be reached over calls of user
policies. -/
theorem mem_sourcesReaching_iff {name user : String} :
    user ∈ t.sourcesReaching name ↔
      ∃ i j p, t.idOf? name = some j ∧ t.get? i = some p ∧ p.name = user ∧
        p.isDerived = false ∧ Relation.ReflTransGen t.UserCalls i j := by
  rw [sourcesReaching]
  cases hplace : t.idOf? name with
  | none =>
    constructor
    · intro h
      exact (List.not_mem_nil h).elim
    · rintro ⟨_, _, _, h, -⟩
      cases h
  | some j =>
    simp only [mem_sourcesOf_iff, Option.some.injEq]
    constructor
    · rintro ⟨i, p, h⟩
      exact ⟨i, j, p, rfl, h⟩
    · rintro ⟨i, _, p, rfl, h⟩
      exact ⟨i, p, h⟩

end Table

/-! ## Freezing -/

namespace Registry

variable (r : Registry)

/-- The registry with other sources written to its policies. -/
def withSources (f : Policy → SortedSet String) : Registry where
  policies := r.policies.map fun p => { p with sources := f p }
  ascending := List.pairwise_map.mpr r.ascending

theorem callersOf_table : callersOf r.table.policies = callersOf r.linked := by
  apply List.ext_getElem?
  intro i
  simp only [callersOf, table, List.getElem?_mapIdx, Option.map_map, Function.comp_def,
    Policy.isDerived]

theorem sources_table {p : Policy} (hp : p ∈ r.table.policies) :
    p.sources = r.table.sourcesReaching p.name := by
  obtain ⟨i, hi⟩ := List.getElem?_of_mem hp
  have hplace : r.table.idOf? p.name = some ⟨i⟩ := Table.idOf?_eq_some_iff.mpr ⟨p, hi, rfl⟩
  rw [Table.sourcesReaching, hplace]
  simp only
  rw [callersOf_table]
  simp only [table, List.getElem?_mapIdx, Option.map_eq_some_iff] at hi
  obtain ⟨q, -, rfl⟩ := hi
  rfl

theorem freeze_withSources (f : Policy → SortedSet String) :
    (r.withSources f).freeze = r.freeze := by
  have hnames : (r.withSources f).names = r.names := by
    rw [names, withSources, List.map_map]
    rfl
  have hlinked : (r.withSources f).linked = r.linked := by
    rw [linked, hnames, withSources, List.map_map]
    rfl
  have htable : (r.withSources f).table = r.table := by
    rw [table, table]
    simp only [hlinked]
  have hnotices : (r.withSources f).freezeNotices = r.freezeNotices := by
    rw [freezeNotices, hnames, withSources, List.flatMap_map]
    rfl
  rw [freeze, freeze, htable, hnotices]

/-- A policy has a reference to another one, in one of the places that are meant: by its name, or by
a stray link of a reference that is left over. -/
theorem refers_iff {meant : Role → Prop} {i j : PolicyId} :
    r.table.Refers meant i j ↔ ∃ p, r.policies[i.index]? = some p ∧
      ((∃ o ∈ Statement.occurrencesAll p.statements,
          meant o.role ∧ r.table.idOf? o.target.name = some j) ∨
        ∃ o ∈ p.leftOver r.names, meant o.role ∧ o.target.link = some j) := by
  simp only [idOf?_table]
  constructor
  · rintro ⟨q, hq, o, ho, hmeant, hlink⟩
    obtain ⟨p, hp, hlinked⟩ := r.get?_table_some hq
    refine ⟨p, hp, ?_⟩
    rcases hlinked.mem_occurrencesAll_iff.mp ho with ⟨source, hsource, id, hplace, rfl⟩ | hleft
    · cases hlink
      exact .inl ⟨source, hsource, hmeant, hplace⟩
    · exact .inr ⟨o, hleft, hmeant, hlink⟩
  · rintro ⟨p, hp, hrefers⟩
    obtain ⟨q, hq, hlinked⟩ := r.get?_table_of_some hp
    refine ⟨q, hq, ?_⟩
    rcases hrefers with ⟨o, ho, hmeant, hplace⟩ | ⟨o, hleft, hmeant, hlink⟩
    · exact ⟨o.map (·.linked j),
        hlinked.mem_occurrencesAll_iff.mpr (.inl ⟨o, ho, j, hplace, rfl⟩), hmeant, rfl⟩
    · exact ⟨o, hlinked.mem_occurrencesAll_iff.mpr (.inr hleft), hmeant, hlink⟩

/-- The calls that the search follows, in terms of the registry. -/
theorem userCalls_table_iff {i j : PolicyId} :
    r.table.UserCalls i j ↔ ∃ p, r.policies[i.index]? = some p ∧ p.isDerived = false ∧
      ((∃ o ∈ Statement.occurrencesAll p.statements,
          o.role ≠ .defaultPolicy ∧ r.table.idOf? o.target.name = some j) ∨
        ∃ o ∈ p.leftOver r.names, o.role ≠ .defaultPolicy ∧ o.target.link = some j) := by
  rw [Table.UserCalls, Table.Calls, r.refers_iff]
  constructor
  · rintro ⟨⟨q, hq, huser⟩, p, hp, hcalls⟩
    obtain ⟨p', hp', hlinked⟩ := r.get?_table_some hq
    rw [hp] at hp'
    cases hp'
    exact ⟨p, hp, hlinked.isDerived_eq.symm.trans huser, hcalls⟩
  · rintro ⟨p, hp, huser, hcalls⟩
    obtain ⟨q, hq, hlinked⟩ := r.get?_table_of_some hp
    exact ⟨⟨q, hq, hlinked.isDerived_eq.trans huser⟩, p, hp, hcalls⟩

/-- Without stray links the search follows calls by name only. -/
theorem NoStrayLinks.userCalls_table_iff {r : Registry} (hr : r.NoStrayLinks) {i j : PolicyId} :
    r.table.UserCalls i j ↔ ∃ p, r.policies[i.index]? = some p ∧ p.isDerived = false ∧
      ∃ o ∈ Statement.occurrencesAll p.statements,
        o.role ≠ .defaultPolicy ∧ r.table.idOf? o.target.name = some j := by
  rw [r.userCalls_table_iff]
  refine exists_congr fun p => and_congr_right fun hp => and_congr_right fun _ => or_iff_left ?_
  rintro ⟨o, hleft, -, hlink⟩
  rw [hr p (List.mem_of_getElem? hp) o hleft] at hlink
  cases hlink

/-- **Provenance is reachability.**  The sources that a freeze stores with a policy are the user
policies from which it can be reached over calls that user policies make; a user policy is a source
of itself.  What the policies came with as their sources does not matter.  A call is a reference,
other than a default policy, to a defined name.  An undefined reference is one only by a stray link,
to the policy at that place; when there are none, undefined references do not count. -/
theorem freeze_sources (r : Registry) :
    (∀ p ∈ r.freeze.2.policies, p.sources = r.freeze.2.sourcesReaching p.name) ∧
    (∀ name user, user ∈ r.freeze.2.sourcesReaching name ↔
      ∃ i j p, r.freeze.2.idOf? name = some j ∧ r.freeze.2.get? i = some p ∧ p.name = user ∧
        p.isDerived = false ∧ Relation.ReflTransGen r.freeze.2.UserCalls i j) ∧
    (∀ f, (r.withSources f).freeze = r.freeze) ∧
    (∀ i j, r.freeze.2.UserCalls i j ↔
      ∃ p, r.policies[i.index]? = some p ∧ p.isDerived = false ∧
        ((∃ o ∈ Statement.occurrencesAll p.statements,
            o.role ≠ .defaultPolicy ∧ r.freeze.2.idOf? o.target.name = some j) ∨
          ∃ o ∈ p.leftOver r.names, o.role ≠ .defaultPolicy ∧ o.target.link = some j)) ∧
    (r.NoStrayLinks → ∀ i j, r.freeze.2.UserCalls i j ↔
      ∃ p, r.policies[i.index]? = some p ∧ p.isDerived = false ∧
        ∃ o ∈ Statement.occurrencesAll p.statements,
          o.role ≠ .defaultPolicy ∧ r.freeze.2.idOf? o.target.name = some j) :=
  ⟨fun _ hp => r.sources_table hp, fun _ _ => Table.mem_sourcesReaching_iff, r.freeze_withSources,
    fun _ _ => r.userCalls_table_iff, fun hr _ _ => hr.userCalls_table_iff⟩

/-- Two user policies that call each other, with a derived policy between them and the last one;
the first one asks an undefined policy, and has the last one as its default policy. -/
theorem freeze_sources_mutual :
    let r : Registry :=
      { policies := [
          { name := "a"
            statements := [
              .call (.named "b"), .setDefaultPolicy (.named "e"),
              .guarded (.callPolicy (.named "u")) []] },
          { name := "b", statements := [.guarded (.callPolicy (.named "a")) [.call (.named "d")]] },
          { name := "d", statements := [.call (.named "e")], origin := .derived },
          { name := "e", statements := [] }]
        ascending := by decide }
    r.NoStrayLinks ∧
      r.freeze.2.policies.map (·.sources.toList) = [["a", "b"], ["a", "b"], ["a", "b"], ["e"]] ∧
      (∀ j, r.freeze.2.UserCalls ⟨0⟩ j → j = ⟨1⟩) ∧
      "a" ∈ r.freeze.2.sourcesReaching "d" := by
  intro r
  have hr : r.NoStrayLinks := by decide
  obtain ⟨-, hsources, -, -, hcalls⟩ := freeze_sources r
  refine ⟨hr, by decide, fun j hj => ?_, ?_⟩
  · obtain ⟨p, hp, -, o, ho, hrole, hplace⟩ := (hcalls hr ⟨0⟩ j).mp hj
    cases hp
    have hnear : ∀ o ∈ Statement.occurrencesAll r.policies[0].statements,
        o.role = .defaultPolicy ∨ r.freeze.2.idOf? o.target.name ∈ [none, some ⟨1⟩] := by decide
    rcases hnear o ho with hdefault | hdefined
    · exact absurd hdefault hrole
    · rw [hplace] at hdefined
      simpa using hdefined
  · have hab : r.freeze.2.UserCalls ⟨0⟩ ⟨1⟩ :=
      (hcalls hr _ _).mpr ⟨_, rfl, rfl, ⟨.call, .named "b"⟩, by decide, by decide, by decide⟩
    have hbd : r.freeze.2.UserCalls ⟨1⟩ ⟨2⟩ :=
      (hcalls hr _ _).mpr ⟨_, rfl, rfl, ⟨.call, .named "d"⟩, by decide, by decide, by decide⟩
    exact (hsources "d" "a").mpr ⟨⟨0⟩, ⟨2⟩, _, by decide, rfl, rfl, rfl, .head hab (.single hbd)⟩

/-- **A stray link makes an undefined reference count.**  A policy that asks the undefined policy "a"
is taken out of the table in which "a" was the first policy.  Behind "b" it is reported to refer to
no policy, and is a source of "b". -/
theorem freeze_sources_stray :
    let asking (ref : Reference) : Policy :=
      { name := "p"
        statements := [.branch (.callPolicy ref) [.control .exitAccept] [.control .exitReject]] }
    let first (name : String) : Policy := { name, statements := [.control .returnTrue] }
    let old : Registry := { policies := [first "a", asking (.named "a")], ascending := by decide }
    let taken : Policy :=
      { asking ((Reference.named "a").linked ⟨0⟩) with sources := .ofList ["p"] }
    let r : Registry := { policies := [first "b", taken], ascending := by decide }
    old.freeze.2.resolve? "p" = some taken ∧
      Statement.occurrencesAll taken.statements = [⟨.asked, (Reference.named "a").linked ⟨0⟩⟩] ∧
      r.freeze.2.idOf? "a" = none ∧
      diagnosticsOf r.freeze.1 =
        [{ policy := "p", finding := .undefinedReference .policy "a" }] ∧
      (r.freeze.2.sourcesReaching "b").toList = ["b", "p"] := by
  decide

end Registry

end RoutePolicy
