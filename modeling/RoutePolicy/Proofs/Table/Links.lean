import RoutePolicy.Proofs.Codec.Policy
import RoutePolicy.Proofs.Registry.StrayLinks
import RoutePolicy.Proofs.Table.Equivalence

/-!
# The names of a table determine its links

Without stray links, a reference in a frozen table is linked to the place of its name, or not linked
when no policy has that name.  Two such tables that list the same policies when links and terms are
forgotten are therefore equivalent.

* `Statement.runAll_mapReferencesAll` — a program does the same after a replacement that keeps the
  links of its references;
* `Statement.mapReferencesAll_comp` — replacing twice;
* `Registry.equivalent_of_forget_eq` — the equivalence of the tables.
-/

set_option autoImplicit false

namespace RoutePolicy

/-! ## Only links matter -/

section

variable {f : Reference → Reference} (ctx : Context)

namespace Context

theorem askFirst_map {rs : List Reference} (h : ∀ r ∈ rs, (f r).link = r.link) :
    ctx.askFirst (rs.map f) = ctx.askFirst rs := by
  induction rs with
  | nil => rfl
  | cons r rs ih =>
    obtain ⟨hr, hrs⟩ := List.forall_mem_cons.mp h
    rw [List.map_cons, askFirst, askFirst, ctx.ask_congr hr, ih hrs]

theorem askAll_map {rs : List Reference} (h : ∀ r ∈ rs, (f r).link = r.link) :
    ctx.askAll (rs.map f) = ctx.askAll rs := by
  induction rs with
  | nil => rfl
  | cons r rs ih =>
    obtain ⟨hr, hrs⟩ := List.forall_mem_cons.mp h
    rw [List.map_cons, askAll, askAll, ctx.ask_congr hr, ih hrs]

theorem call_congr {r r' : Reference} (h : r.link = r'.link) : ctx.call r = ctx.call r' := by
  have hvisit : ctx.visit r = ctx.visit r' := by
    rw [visit, visit, h]
  rw [call, call, hvisit]

end Context

namespace Condition

mutual

theorem judge_mapReferences : (c : Condition) → (∀ r ∈ c.references, (f r).link = r.link) →
    (c.mapReferences f).judge ctx = c.judge ctx
  | .literal _, _ => rfl
  | .test _, _ => rfl
  | .not c, h => by
    rw [mapReferences, judge, judge, judge_mapReferences c h]
  | .all cs, h => by
    rw [mapReferences, judge, judge, judgeEach_mapReferencesAll cs h]
  | .any cs, h => by
    rw [mapReferences, judge, judge, judgeEach_mapReferencesAll cs h]
  | .firstMatch targets, h => by
    rw [references] at h
    rw [mapReferences, judge, judge, ctx.askFirst_map h]
  | .allMatch targets, h => by
    rw [references] at h
    rw [mapReferences, judge, judge, ctx.askAll_map h, List.isEmpty_map]
  | .callPolicy target, h => by
    rw [mapReferences, judge, judge, ctx.ask_congr (h target List.mem_cons_self)]
  | .inCall, _ => rfl

theorem judgeEach_mapReferencesAll : (cs : List Condition) →
    (∀ r ∈ referencesAll cs, (f r).link = r.link) →
    judgeEach ctx (mapReferencesAll f cs) = judgeEach ctx cs
  | [], _ => rfl
  | c :: cs, h => by
    rw [referencesAll] at h
    obtain ⟨hc, hcs⟩ := List.forall_mem_append.mp h
    rw [mapReferencesAll, judgeEach, judgeEach, judge_mapReferences c hc,
      judgeEach_mapReferencesAll cs hcs]

end

end Condition

namespace Statement

mutual

theorem run_mapReferences : (s : Statement) → (∀ r ∈ s.references, (f r).link = r.link) →
    (s.mapReferences f).run ctx = s.run ctx
  | .branch guard a b, h => by
    rw [references] at h
    obtain ⟨hfront, hb⟩ := List.forall_mem_append.mp h
    obtain ⟨hguard, ha⟩ := List.forall_mem_append.mp hfront
    rw [mapReferences, run, run, guard.judge_mapReferences ctx hguard,
      runAll_mapReferencesAll a ha, runAll_mapReferencesAll b hb]
  | .setDefaultPolicy target, h => by
    rw [mapReferences, run, run, h target List.mem_cons_self]
  | .call target, h => by
    rw [mapReferences, run, run, ctx.call_congr (h target List.mem_cons_self)]
  | .write _ _, _ => rfl
  | .comment _, _ => rfl
  | .control _, _ => rfl

/-- A program does the same after its references are replaced by ones with the same links. -/
theorem runAll_mapReferencesAll : (ss : List Statement) →
    (∀ r ∈ referencesAll ss, (f r).link = r.link) →
    runAll ctx (mapReferencesAll f ss) = runAll ctx ss
  | [], _ => rfl
  | s :: ss, h => by
    rw [referencesAll] at h
    obtain ⟨hs, hss⟩ := List.forall_mem_append.mp h
    rw [mapReferencesAll, runAll, runAll, run_mapReferences s hs, runAll_mapReferencesAll ss hss]

end

end Statement

end

/-! ## Replacing twice -/

namespace Condition

variable (g f : Reference → Reference)

mutual

theorem mapReferences_comp : (c : Condition) →
    (c.mapReferences f).mapReferences g = c.mapReferences (g ∘ f)
  | .not c => by simp only [mapReferences, mapReferences_comp c]
  | .all cs => by simp only [mapReferences, mapReferencesAll_comp cs]
  | .any cs => by simp only [mapReferences, mapReferencesAll_comp cs]
  | .firstMatch _ => by simp only [mapReferences, List.map_map]
  | .allMatch _ => by simp only [mapReferences, List.map_map]
  | .callPolicy _ | .literal _ | .test _ | .inCall => rfl

theorem mapReferencesAll_comp : (cs : List Condition) →
    mapReferencesAll g (mapReferencesAll f cs) = mapReferencesAll (g ∘ f) cs
  | [] => rfl
  | c :: cs => by simp only [mapReferencesAll, mapReferences_comp c, mapReferencesAll_comp cs]

end

end Condition

namespace Statement

variable (g f : Reference → Reference)

mutual

theorem mapReferences_comp : (s : Statement) →
    (s.mapReferences f).mapReferences g = s.mapReferences (g ∘ f)
  | .branch guard a b => by
    simp only [mapReferences, guard.mapReferences_comp, mapReferencesAll_comp a,
      mapReferencesAll_comp b]
  | .setDefaultPolicy _ | .call _ | .write _ _ | .comment _ | .control _ => rfl

theorem mapReferencesAll_comp : (ss : List Statement) →
    mapReferencesAll g (mapReferencesAll f ss) = mapReferencesAll (g ∘ f) ss
  | [] => rfl
  | s :: ss => by simp only [mapReferencesAll, mapReferences_comp s, mapReferencesAll_comp ss]

end

end Statement

/-! ## Frozen tables -/

/-- The reference linked to the place of its name. -/
def Reference.relinked (names : List String) (r : Reference) : Reference := .placed names r.name

namespace Registry

variable {r : Registry}

/-- What a frozen policy does can be told from its statements without the links. -/
theorem runAll_eq_of_forget {p q : Policy} (h : p.NoStrayLinks r.names)
    (hq : q.LinkedFrom r.names p) (ctx : Context) :
    Statement.runAll ctx q.statements =
      Statement.runAll ctx
        (Statement.mapReferencesAll (.relinked r.names) q.forget.statements) := by
  have hcomp : Statement.mapReferencesAll (.relinked r.names) q.forget.statements =
      Statement.mapReferencesAll (.relinked r.names) q.statements :=
    Statement.mapReferencesAll_comp _ _ q.statements
  rw [hcomp]
  refine (Statement.runAll_mapReferencesAll ctx q.statements fun ref href => ?_).symm
  exact (hq.link_eq_placeOf_iff.mpr h ref href).symm

/-- **Tables that list the same policies up to links and terms are equivalent**, when none of the
links is a stray one. -/
theorem equivalent_of_forget_eq {r' : Registry} (h : r.NoStrayLinks) (h' : r'.NoStrayLinks)
    (hforget : r.table.policies.map Policy.forget = r'.table.policies.map Policy.forget) :
    r.table.Equivalent r'.table := by
  have hnames : r.names = r'.names := by
    have hmapped := congrArg (List.map Policy.name) hforget
    rw [List.map_map, List.map_map] at hmapped
    rw [← r.names_table, ← r'.names_table]
    exact hmapped
  refine ⟨?_, ?_⟩
  · have hlength := congrArg List.length hforget
    rw [List.length_map, List.length_map] at hlength
    exact hlength
  · intro id q q' hq hq'
    have hget : q.forget = q'.forget := by
      have hplace := congrArg (·[id.index]?) hforget
      simp only [List.getElem?_map] at hplace
      rw [Table.get?] at hq hq'
      rw [hq, hq'] at hplace
      exact Option.some.inj hplace
    have hname : q.forget.name = q'.forget.name := congrArg Policy.name hget
    obtain ⟨p, hp, hlinked⟩ := r.get?_table_some hq
    obtain ⟨p', hp', hlinked'⟩ := r'.get?_table_some hq'
    refine ⟨hname, fun ctx => ?_⟩
    rw [runAll_eq_of_forget (h p (List.mem_of_getElem? hp)) hlinked,
      runAll_eq_of_forget (h' p' (List.mem_of_getElem? hp')) hlinked', hget, hnames]

end Registry

end RoutePolicy
