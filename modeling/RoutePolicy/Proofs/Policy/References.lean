import RoutePolicy.Policy.Simplify
import RoutePolicy.Proofs.Policy.Linking
import Mathlib.Data.List.Flatten

/-!
# The references of a program

What the passes over a program do to the references in it.  Linking drops some and gives others a
link; simplifying drops some.  Neither adds a reference, and neither changes the order.

* `Statement.occurrencesAll_linkAll` — the references of a linked program, with their places;
* `Statement.occurrencesAll_simplifyAll_sublist` — those of a simplified one;
* `Statement.mapReferencesAll_congr`, `Statement.mapReferencesAll_eq_self` — replacing references
  changes nothing else.
-/

set_option autoImplicit false

namespace RoutePolicy

namespace Condition

theorem referencesAll_eq_flatMap (cs : List Condition) :
    referencesAll cs = cs.flatMap references := by
  induction cs with
  | nil => rfl
  | cons c cs ih => rw [referencesAll, ih, List.flatMap_cons]

theorem referencesAll_append (cs ds : List Condition) :
    referencesAll (cs ++ ds) = referencesAll cs ++ referencesAll ds := by
  simp only [referencesAll_eq_flatMap, List.flatMap_append]

theorem occurrencesAll_eq_flatMap (cs : List Condition) :
    occurrencesAll cs = cs.flatMap occurrences := by
  induction cs with
  | nil => rfl
  | cons c cs ih => rw [occurrencesAll, ih, List.flatMap_cons]

theorem occurrencesAll_append (cs ds : List Condition) :
    occurrencesAll (cs ++ ds) = occurrencesAll cs ++ occurrencesAll ds := by
  simp only [occurrencesAll_eq_flatMap, List.flatMap_append]

theorem occurrencesAll_sublist {cs ds : List Condition} (h : cs.Sublist ds) :
    (occurrencesAll cs).Sublist (occurrencesAll ds) := by
  rw [occurrencesAll_eq_flatMap, occurrencesAll_eq_flatMap]
  exact h.flatMap occurrences

end Condition

namespace Statement

theorem referencesAll_eq_flatMap (ss : List Statement) :
    referencesAll ss = ss.flatMap references := by
  induction ss with
  | nil => rfl
  | cons s ss ih => rw [referencesAll, ih, List.flatMap_cons]

theorem referencesAll_append (ss ts : List Statement) :
    referencesAll (ss ++ ts) = referencesAll ss ++ referencesAll ts := by
  simp only [referencesAll_eq_flatMap, List.flatMap_append]

end Statement

/-! ## Linking -/

/-- The references of a linked program are those of the program, each linked if it can be, without
the ones that linking dropped; all others stay in their places. -/
theorem Statement.occurrencesAll_linkAll (names : List String) (ss : List Statement) :
    occurrencesAll (linkAll names ss) =
      ((occurrencesAll ss).filter (·.stays names)).map (·.map (·.linkOrKeep names)) := by
  rw [linkAll_eq, occurrencesAll_mapReferencesAll, occurrencesAll_pruneAll]

theorem Statement.referencesAll_linkAll_sublist (names : List String) (ss : List Statement) :
    (referencesAll (linkAll names ss)).Sublist ((referencesAll ss).map (·.linkOrKeep names)) := by
  rw [← map_target_occurrencesAll, ← map_target_occurrencesAll, occurrencesAll_linkAll,
    List.map_map, List.map_map]
  exact List.filter_sublist.map _

/-! ## Simplifying -/

namespace Condition

theorem occurrences_negate (c : Condition) : (negate c).occurrences = c.occurrences := by
  cases c <;> rfl

theorem occurrences_connective (neutral : Bool) (cs : List Condition) :
    (connective neutral cs).occurrences = occurrencesAll cs := by
  cases neutral <;> rfl

theorem occurrencesAll_spread (neutral : Bool) (c : Condition) :
    occurrencesAll (spread neutral c) = c.occurrences := by
  cases c <;> cases neutral <;> simp [spread, occurrencesAll, occurrences]

theorem occurrences_fold_sublist (neutral : Bool) (operands : List Condition) :
    (fold neutral operands).occurrences.Sublist (occurrencesAll operands) := by
  have hlive : (occurrencesAll (operands.filter fun c => !c.isLiteral)).Sublist
      (occurrencesAll operands) := occurrencesAll_sublist List.filter_sublist
  unfold fold
  simp only
  split
  · -- a constant settles the connective, and goes behind what can still run a policy
    split
    · exact List.nil_sublist _
    · rw [occurrences_connective, occurrencesAll_append]
      simp only [occurrencesAll, occurrences, List.append_nil]
      exact (occurrencesAll_sublist List.filter_sublist).trans hlive
  · split
    · exact List.nil_sublist _
    · rename_i c hkept
      rw [hkept, occurrencesAll, occurrencesAll, List.append_nil] at hlive
      exact hlive
    · rw [occurrences_connective]
      exact hlive

mutual

theorem occurrences_simplify_sublist : (c : Condition) →
    c.simplify.occurrences.Sublist c.occurrences
  | .literal _ => .refl _
  | .test _ => .refl _
  | .not c => by
    rw [simplify, occurrences_negate, occurrences]
    exact occurrences_simplify_sublist c
  | .all cs =>
    (occurrences_fold_sublist true _).trans (occurrencesAll_simplifySpread_sublist true cs)
  | .any cs =>
    (occurrences_fold_sublist false _).trans (occurrencesAll_simplifySpread_sublist false cs)
  | .firstMatch targets => by
    rw [simplify]
    split
    · exact List.nil_sublist _
    · exact .refl _
  | .allMatch targets => by
    rw [simplify]
    split
    · exact List.nil_sublist _
    · exact .refl _
  | .callPolicy _ => .refl _
  | .inCall => .refl _

theorem occurrencesAll_simplifySpread_sublist (neutral : Bool) : (cs : List Condition) →
    (occurrencesAll (simplifySpread neutral cs)).Sublist (occurrencesAll cs)
  | [] => .refl _
  | c :: cs => by
    rw [simplifySpread, occurrencesAll_append, occurrencesAll_spread, occurrencesAll]
    exact (occurrences_simplify_sublist c).append
      (occurrencesAll_simplifySpread_sublist neutral cs)

end

end Condition

namespace Statement

theorem occurrencesAll_cutAfterEnd_sublist (ss : List Statement) :
    (occurrencesAll (cutAfterEnd ss)).Sublist (occurrencesAll ss) := by
  induction ss with
  | nil => exact .refl _
  | cons s ss ih =>
    rw [cutAfterEnd, occurrencesAll]
    split
    · rw [occurrencesAll, occurrencesAll, List.append_nil]
      exact List.sublist_append_left _ _
    · rw [occurrencesAll]
      exact (List.Sublist.refl _).append ih

theorem occurrencesAll_simplifyBranch_sublist (guard : Condition) (a b : List Statement) :
    (occurrencesAll (simplifyBranch guard a b)).Sublist
      (guard.occurrences ++ occurrencesAll a ++ occurrencesAll b) := by
  unfold simplifyBranch
  split
  · exact List.sublist_append_left _ _
  · exact List.sublist_append_right _ _
  · split
    · exact List.nil_sublist _
    · have hbranch : occurrencesAll [branch guard a b] =
          guard.occurrences ++ occurrencesAll a ++ occurrencesAll b := List.append_nil _
      exact hbranch ▸ .refl _

mutual

theorem occurrencesAll_simplify_sublist : (s : Statement) →
    (occurrencesAll s.simplify).Sublist s.occurrences
  | .comment _ => .refl _
  | .branch guard a b => by
    have hguard := guard.occurrences_simplify_sublist
    have ha := (occurrencesAll_cutAfterEnd_sublist _).trans (occurrencesAll_simplifyEach_sublist a)
    have hb := (occurrencesAll_cutAfterEnd_sublist _).trans (occurrencesAll_simplifyEach_sublist b)
    rw [simplify, occurrences]
    exact (occurrencesAll_simplifyBranch_sublist _ _ _).trans ((hguard.append ha).append hb)
  | .write _ _ => .refl _
  | .setDefaultPolicy _ => .refl _
  | .call _ => .refl _
  | .control _ => .refl _

theorem occurrencesAll_simplifyEach_sublist : (ss : List Statement) →
    (occurrencesAll (simplifyEach ss)).Sublist (occurrencesAll ss)
  | [] => .refl _
  | s :: ss => by
    rw [simplifyEach, occurrencesAll_append, occurrencesAll]
    exact (occurrencesAll_simplify_sublist s).append (occurrencesAll_simplifyEach_sublist ss)

end

/-- The references of a simplified program are those of the program, in their places, without the
ones in parts that cannot matter. -/
theorem occurrencesAll_simplifyAll_sublist (ss : List Statement) :
    (occurrencesAll (simplifyAll ss)).Sublist (occurrencesAll ss) :=
  (occurrencesAll_cutAfterEnd_sublist _).trans (occurrencesAll_simplifyEach_sublist ss)

theorem referencesAll_simplifyAll_sublist (ss : List Statement) :
    (referencesAll (simplifyAll ss)).Sublist (referencesAll ss) := by
  rw [← map_target_occurrencesAll, ← map_target_occurrencesAll]
  exact (occurrencesAll_simplifyAll_sublist ss).map _

end Statement

/-! ## Replacing references -/

namespace Condition

variable {f g : Reference → Reference}

mutual

theorem mapReferences_congr : (c : Condition) → (∀ r ∈ c.references, f r = g r) →
    c.mapReferences f = c.mapReferences g
  | .literal _, _ => rfl
  | .test _, _ => rfl
  | .not c, h => by
    rw [mapReferences, mapReferences, mapReferences_congr c h]
  | .all cs, h => by
    rw [mapReferences, mapReferences, mapReferencesAll_congr cs h]
  | .any cs, h => by
    rw [mapReferences, mapReferences, mapReferencesAll_congr cs h]
  | .firstMatch targets, h => by
    rw [references] at h
    rw [mapReferences, mapReferences, List.map_congr_left h]
  | .allMatch targets, h => by
    rw [references] at h
    rw [mapReferences, mapReferences, List.map_congr_left h]
  | .callPolicy target, h => by
    rw [mapReferences, mapReferences, h target List.mem_cons_self]
  | .inCall, _ => rfl

theorem mapReferencesAll_congr : (cs : List Condition) → (∀ r ∈ referencesAll cs, f r = g r) →
    mapReferencesAll f cs = mapReferencesAll g cs
  | [], _ => rfl
  | c :: cs, h => by
    rw [referencesAll] at h
    obtain ⟨hc, hcs⟩ := List.forall_mem_append.mp h
    rw [mapReferencesAll, mapReferencesAll, mapReferences_congr c hc, mapReferencesAll_congr cs hcs]

end

mutual

theorem mapReferences_self : (c : Condition) → c.mapReferences (fun r => r) = c
  | .not c => by rw [mapReferences, mapReferences_self c]
  | .all cs => by rw [mapReferences, mapReferencesAll_self cs]
  | .any cs => by rw [mapReferences, mapReferencesAll_self cs]
  | .firstMatch targets => by rw [mapReferences, List.map_id']
  | .allMatch targets => by rw [mapReferences, List.map_id']
  | .literal _ | .test _ | .callPolicy _ | .inCall => rfl

theorem mapReferencesAll_self : (cs : List Condition) → mapReferencesAll (fun r => r) cs = cs
  | [] => rfl
  | c :: cs => by rw [mapReferencesAll, mapReferences_self c, mapReferencesAll_self cs]

end

end Condition

namespace Statement

variable {f g : Reference → Reference}

mutual

theorem mapReferences_congr : (s : Statement) → (∀ r ∈ s.references, f r = g r) →
    s.mapReferences f = s.mapReferences g
  | .branch guard a b, h => by
    rw [references] at h
    obtain ⟨hfront, hb⟩ := List.forall_mem_append.mp h
    obtain ⟨hguard, ha⟩ := List.forall_mem_append.mp hfront
    rw [mapReferences, mapReferences, guard.mapReferences_congr hguard,
      mapReferencesAll_congr a ha, mapReferencesAll_congr b hb]
  | .setDefaultPolicy target, h => by
    rw [mapReferences, mapReferences, h target List.mem_cons_self]
  | .call target, h => by
    rw [mapReferences, mapReferences, h target List.mem_cons_self]
  | .write _ _, _ => rfl
  | .comment _, _ => rfl
  | .control _, _ => rfl

/-- Only what a replacement does to the references of a program matters. -/
theorem mapReferencesAll_congr : (ss : List Statement) → (∀ r ∈ referencesAll ss, f r = g r) →
    mapReferencesAll f ss = mapReferencesAll g ss
  | [], _ => rfl
  | s :: ss, h => by
    rw [referencesAll] at h
    obtain ⟨hs, hss⟩ := List.forall_mem_append.mp h
    rw [mapReferencesAll, mapReferencesAll, mapReferences_congr s hs, mapReferencesAll_congr ss hss]

end

mutual

theorem mapReferences_self : (s : Statement) → s.mapReferences (fun r => r) = s
  | .branch guard a b => by
    rw [mapReferences, guard.mapReferences_self, mapReferencesAll_self a, mapReferencesAll_self b]
  | .setDefaultPolicy _ | .call _ | .write _ _ | .comment _ | .control _ => rfl

theorem mapReferencesAll_self : (ss : List Statement) → mapReferencesAll (fun r => r) ss = ss
  | [] => rfl
  | s :: ss => by rw [mapReferencesAll, mapReferences_self s, mapReferencesAll_self ss]

end

/-- A replacement that keeps every reference of a program keeps the program. -/
theorem mapReferencesAll_eq_self {ss : List Statement} (h : ∀ r ∈ referencesAll ss, f r = r) :
    mapReferencesAll f ss = ss :=
  (mapReferencesAll_congr ss h).trans (mapReferencesAll_self ss)

end Statement

end RoutePolicy
