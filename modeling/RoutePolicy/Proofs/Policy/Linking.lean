import RoutePolicy.Proofs.Policy.Occurrences

/-!
# What linking changes in a program

Linking is taken apart into two passes.  The first drops the calls, the default policies and the
members of first-match chains that name no policy; the second gives every reference that is left
the place of its name, if there is one.  Neither touches anything else.

* `Condition.prune`, `Statement.pruneAll` — the first pass;
* `Statement.pruneAll_congr` — the first pass among other names;
* `Statement.linkAll_eq` — linking is the second pass after the first;
* `Statement.occurrencesAll_pruneAll` — the references that the first pass leaves, by their places.
-/

set_option autoImplicit false

namespace RoutePolicy

theorem placeOf_eq_none_iff {names : List String} {name : String} :
    placeOf names name = none ↔ name ∉ names := by
  rw [placeOf, Option.map_eq_none_iff, List.findIdx?_eq_none_iff]
  simp only [beq_eq_false_iff_ne]
  exact ⟨fun h hmem => h name hmem rfl, fun h x hx heq => h (heq ▸ hx)⟩

/-- Whether a reference in such a place stays when its name is undefined.  It stays as it is, with
a link only if it came with one. -/
def Role.keepsUndefined : Role → Bool
  | .call | .defaultPolicy | .firstMatch => false
  | .allMatch | .asked => true

/-- Whether the reference is still there after linking among several names. -/
def Occurrence.stays (names : List String) (o : Occurrence) : Bool :=
  names.contains o.target.name || o.role.keepsUndefined

section

variable (names : List String)

/-! ## The first pass -/

namespace Condition

mutual

/-- The condition without the members of first-match chains that are undefined among the names. -/
def prune : Condition → Condition
  | .firstMatch targets => .firstMatch (targets.filter fun r => names.contains r.name)
  | .not c => .not (prune c)
  | .all cs => .all (pruneAll cs)
  | .any cs => .any (pruneAll cs)
  | .literal b => .literal b
  | .test p => .test p
  | .allMatch targets => .allMatch targets
  | .callPolicy target => .callPolicy target
  | .inCall => .inCall

/-- Several conditions without the undefined members of first-match chains. -/
def pruneAll : List Condition → List Condition
  | [] => []
  | c :: cs => prune c :: pruneAll cs

end

end Condition

namespace Statement

mutual

/-- What is left of a statement: nothing of a call or a default policy that is undefined among the
names. -/
def prune : Statement → List Statement
  | .branch guard a b => [.branch (guard.prune names) (pruneAll a) (pruneAll b)]
  | .setDefaultPolicy target =>
    if names.contains target.name then [.setDefaultPolicy target] else []
  | .call target => if names.contains target.name then [.call target] else []
  | .write field update => [.write field update]
  | .comment text => [.comment text]
  | .control kind => [.control kind]

/-- What is left of several statements. -/
def pruneAll : List Statement → List Statement
  | [] => []
  | s :: ss => prune s ++ pruneAll ss

end

end Statement

section

variable {names} {names' : List String}

namespace Condition

mutual

theorem prune_congr : (c : Condition) →
    (∀ r ∈ c.references, names'.contains r.name = names.contains r.name) →
    c.prune names' = c.prune names
  | .firstMatch _, h => congrArg firstMatch (List.filter_congr h)
  | .not c, h => congrArg not (prune_congr c h)
  | .all cs, h => congrArg all (pruneAll_congr cs h)
  | .any cs, h => congrArg any (pruneAll_congr cs h)
  | .literal _, _ => rfl
  | .test _, _ => rfl
  | .allMatch _, _ => rfl
  | .callPolicy _, _ => rfl
  | .inCall, _ => rfl

theorem pruneAll_congr : (cs : List Condition) →
    (∀ r ∈ referencesAll cs, names'.contains r.name = names.contains r.name) →
    pruneAll names' cs = pruneAll names cs
  | [], _ => rfl
  | c :: cs, h => by
    rw [referencesAll] at h
    obtain ⟨hc, hcs⟩ := List.forall_mem_append.mp h
    rw [pruneAll, pruneAll, prune_congr c hc, pruneAll_congr cs hcs]

end

end Condition

namespace Statement

mutual

theorem prune_congr : (s : Statement) →
    (∀ r ∈ s.references, names'.contains r.name = names.contains r.name) →
    s.prune names' = s.prune names
  | .branch guard a b, h => by
    rw [references] at h
    obtain ⟨hfront, hb⟩ := List.forall_mem_append.mp h
    obtain ⟨hguard, ha⟩ := List.forall_mem_append.mp hfront
    rw [prune, prune, guard.prune_congr hguard, pruneAll_congr a ha, pruneAll_congr b hb]
  | .setDefaultPolicy target, h => by rw [prune, prune, h target List.mem_cons_self]
  | .call target, h => by rw [prune, prune, h target List.mem_cons_self]
  | .write _ _, _ => rfl
  | .comment _, _ => rfl
  | .control _, _ => rfl

/-- The first pass drops the same among other names, when the same references are defined. -/
theorem pruneAll_congr : (ss : List Statement) →
    (∀ r ∈ referencesAll ss, names'.contains r.name = names.contains r.name) →
    pruneAll names' ss = pruneAll names ss
  | [], _ => rfl
  | s :: ss, h => by
    rw [referencesAll] at h
    obtain ⟨hs, hss⟩ := List.forall_mem_append.mp h
    rw [pruneAll, pruneAll, prune_congr s hs, pruneAll_congr ss hss]

end

end Statement

end

/-! ## Linking after the first pass -/

namespace Reference

theorem link?_eq_if (r : Reference) :
    r.link? names = if names.contains r.name then some (r.linkOrKeep names) else none := by
  rw [linkOrKeep, link?]
  cases hplace : placeOf names r.name with
  | none =>
    have hundefined : r.name ∉ names := placeOf_eq_none_iff.mp hplace
    rw [if_neg (mt List.contains_iff_mem.mp hundefined), Option.map_none]
  | some id =>
    have hdefined : r.name ∈ names := Classical.not_not.mp fun hundefined => by
      rw [placeOf_eq_none_iff.mpr hundefined] at hplace
      cases hplace
    rw [if_pos (List.contains_iff_mem.mpr hdefined), Option.map_some, Option.getD_some]

theorem filterMap_link? (rs : List Reference) :
    rs.filterMap (·.link? names) =
      (rs.filter fun r => names.contains r.name).map (·.linkOrKeep names) := by
  induction rs with
  | nil => rfl
  | cons r rs ih =>
    have hfirst := r.link?_eq_if names
    rw [List.filter_cons]
    split at hfirst
    · rename_i hdefined
      rw [List.filterMap_cons_some hfirst, if_pos hdefined, List.map_cons, ih]
    · rename_i hundefined
      rw [List.filterMap_cons_none hfirst, if_neg hundefined, ih]

end Reference

namespace Condition

mutual

theorem link_eq : (c : Condition) →
    c.link names = (c.prune names).mapReferences (·.linkOrKeep names)
  | .firstMatch targets => congrArg firstMatch (Reference.filterMap_link? names targets)
  | .not c => congrArg Condition.not (link_eq c)
  | .all cs => congrArg all (linkAll_eq cs)
  | .any cs => congrArg any (linkAll_eq cs)
  | .literal _ => rfl
  | .test _ => rfl
  | .allMatch _ => rfl
  | .callPolicy _ => rfl
  | .inCall => rfl

theorem linkAll_eq : (cs : List Condition) →
    linkAll names cs = mapReferencesAll (·.linkOrKeep names) (pruneAll names cs)
  | [] => rfl
  | c :: cs => by rw [linkAll, pruneAll, mapReferencesAll, link_eq c, linkAll_eq cs]

end

end Condition

namespace Statement

theorem mapReferencesAll_append (f : Reference → Reference) (ss ts : List Statement) :
    mapReferencesAll f (ss ++ ts) = mapReferencesAll f ss ++ mapReferencesAll f ts := by
  induction ss with
  | nil => rfl
  | cons s ss ih => rw [List.cons_append, mapReferencesAll, mapReferencesAll, ih, List.cons_append]

mutual

theorem toList_link? : (s : Statement) →
    (s.link? names).toList = mapReferencesAll (·.linkOrKeep names) (s.prune names)
  | .branch guard a b => by
    rw [link?, prune, guard.link_eq names, linkAll_eq a, linkAll_eq b]
    rfl
  | .setDefaultPolicy target => by
    rw [link?, prune, target.link?_eq_if]
    split <;> rfl
  | .call target => by
    rw [link?, prune, target.link?_eq_if]
    split <;> rfl
  | .write _ _ => rfl
  | .comment _ => rfl
  | .control _ => rfl

/-- Linking drops some undefined references, and gives links to references that are left. -/
theorem linkAll_eq : (ss : List Statement) →
    linkAll names ss = mapReferencesAll (·.linkOrKeep names) (pruneAll names ss)
  | [] => rfl
  | s :: ss => by
    rw [pruneAll, mapReferencesAll_append, ← toList_link? s, ← linkAll_eq ss, linkAll]
    cases s.link? names <;> rfl

end

end Statement

/-! ## What the first pass leaves -/

theorem filter_stays_of_keepsUndefined {role : Role} (h : role.keepsUndefined = true)
    (rs : List Reference) :
    (rs.map (Occurrence.mk role)).filter (·.stays names) = rs.map (Occurrence.mk role) := by
  refine List.filter_eq_self.mpr (List.forall_mem_map.mpr fun r _ => ?_)
  rw [Occurrence.stays, h, Bool.or_true]

theorem filter_stays_of_not_keepsUndefined {role : Role} (h : role.keepsUndefined = false)
    (rs : List Reference) :
    (rs.map (Occurrence.mk role)).filter (·.stays names) =
      (rs.filter fun r => names.contains r.name).map (Occurrence.mk role) := by
  rw [List.filter_map]
  congr 2
  funext r
  rw [Function.comp_apply, Occurrence.stays, h, Bool.or_false]

namespace Condition

mutual

theorem occurrences_prune : (c : Condition) →
    (c.prune names).occurrences = c.occurrences.filter (·.stays names)
  | .firstMatch targets => (filter_stays_of_not_keepsUndefined names rfl targets).symm
  | .not c => occurrences_prune c
  | .all cs => occurrencesAll_pruneAll cs
  | .any cs => occurrencesAll_pruneAll cs
  | .allMatch targets => (filter_stays_of_keepsUndefined names rfl targets).symm
  | .callPolicy target => (filter_stays_of_keepsUndefined names rfl [target]).symm
  | .literal _ => rfl
  | .test _ => rfl
  | .inCall => rfl

theorem occurrencesAll_pruneAll : (cs : List Condition) →
    occurrencesAll (pruneAll names cs) = (occurrencesAll cs).filter (·.stays names)
  | [] => rfl
  | c :: cs => by
    rw [pruneAll, occurrencesAll, occurrencesAll, List.filter_append, occurrences_prune c,
      occurrencesAll_pruneAll cs]

end

end Condition

namespace Statement

theorem occurrencesAll_append (ss ts : List Statement) :
    occurrencesAll (ss ++ ts) = occurrencesAll ss ++ occurrencesAll ts := by
  induction ss with
  | nil => rfl
  | cons s ss ih =>
    rw [List.cons_append, occurrencesAll, occurrencesAll, ih, List.append_assoc]

mutual

theorem occurrencesAll_prune : (s : Statement) →
    occurrencesAll (s.prune names) = s.occurrences.filter (·.stays names)
  | .branch guard a b => by
    simp only [prune, occurrencesAll, occurrences, List.append_nil, List.filter_append,
      guard.occurrences_prune names, occurrencesAll_pruneAll a, occurrencesAll_pruneAll b]
  | .setDefaultPolicy target => by
    rw [prune, occurrences, List.filter_cons, Occurrence.stays, Role.keepsUndefined, Bool.or_false]
    split <;> rfl
  | .call target => by
    rw [prune, occurrences, List.filter_cons, Occurrence.stays, Role.keepsUndefined, Bool.or_false]
    split <;> rfl
  | .write _ _ => rfl
  | .comment _ => rfl
  | .control _ => rfl

/-- The first pass leaves the references that stay, in their places. -/
theorem occurrencesAll_pruneAll : (ss : List Statement) →
    occurrencesAll (pruneAll names ss) = (occurrencesAll ss).filter (·.stays names)
  | [] => rfl
  | s :: ss => by
    rw [pruneAll, occurrencesAll_append, occurrencesAll, List.filter_append,
      occurrencesAll_prune s, occurrencesAll_pruneAll ss]

end

theorem mem_referencesAll_of_pruneAll {ss : List Statement} {ref : Reference}
    (href : ref ∈ referencesAll (pruneAll names ss)) : ref ∈ referencesAll ss := by
  rw [← map_target_occurrencesAll, occurrencesAll_pruneAll] at href
  rw [← map_target_occurrencesAll]
  exact (List.filter_sublist.map _).subset href

end Statement

end

end RoutePolicy
