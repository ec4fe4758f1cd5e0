import RoutePolicy.Registry.Provenance

/-!
# Where references stand

A reference stands in one of five places: it is the target of a call, the default policy, a member
of one of the two kinds of chain, or the policy that a condition asks.  The place decides whether
the reference counts as a call, and what becomes of it when its name is undefined.

* `Role`, `Occurrence` — the places, and a reference in its place;
* `Condition.occurrences`, `Statement.occurrencesAll` — the references of a program in their places,
  in the order of their occurrence;
* `Statement.mem_calleesAll_iff` — the policies that a program can call, in these terms;
* `Statement.occurrencesAll_mapReferencesAll` — replacing references leaves them in their places.
-/

set_option autoImplicit false

namespace RoutePolicy

/-- The place of a reference in a program. -/
inductive Role where
  | call
  | defaultPolicy
  | firstMatch
  | allMatch
  | asked
  deriving DecidableEq, Repr

/-- A reference in its place. -/
structure Occurrence where
  role : Role
  target : Reference
  deriving DecidableEq, Repr

namespace Condition

mutual

/-- The references of a condition in their places, in the order of their occurrence. -/
def occurrences : Condition → List Occurrence
  | .literal _ | .test _ | .inCall => []
  | .not c => occurrences c
  | .all cs => occurrencesAll cs
  | .any cs => occurrencesAll cs
  | .firstMatch targets => targets.map (⟨.firstMatch, ·⟩)
  | .allMatch targets => targets.map (⟨.allMatch, ·⟩)
  | .callPolicy target => [⟨.asked, target⟩]

/-- The references of several conditions in their places. -/
def occurrencesAll : List Condition → List Occurrence
  | [] => []
  | c :: cs => occurrences c ++ occurrencesAll cs

end

end Condition

namespace Statement

mutual

/-- The references of a statement in their places, in the order of their occurrence. -/
def occurrences : Statement → List Occurrence
  | .branch guard a b => guard.occurrences ++ occurrencesAll a ++ occurrencesAll b
  | .setDefaultPolicy target => [⟨.defaultPolicy, target⟩]
  | .call target => [⟨.call, target⟩]
  | .write _ _ | .comment _ | .control _ => []

/-- The references of several statements in their places. -/
def occurrencesAll : List Statement → List Occurrence
  | [] => []
  | s :: ss => occurrences s ++ occurrencesAll ss

end

end Statement

/-! ## References without their places -/

namespace Condition

theorem map_target_map (role : Role) (rs : List Reference) :
    (rs.map (Occurrence.mk role)).map (·.target) = rs := by
  rw [List.map_map]
  exact List.map_id rs

mutual

theorem map_target_occurrences : (c : Condition) → c.occurrences.map (·.target) = c.references
  | .literal _ => rfl
  | .test _ => rfl
  | .inCall => rfl
  | .not c => map_target_occurrences c
  | .all cs => map_target_occurrencesAll cs
  | .any cs => map_target_occurrencesAll cs
  | .firstMatch targets => map_target_map .firstMatch targets
  | .allMatch targets => map_target_map .allMatch targets
  | .callPolicy _ => rfl

theorem map_target_occurrencesAll : (cs : List Condition) →
    (occurrencesAll cs).map (·.target) = referencesAll cs
  | [] => rfl
  | c :: cs => by
    rw [occurrencesAll, List.map_append, map_target_occurrences c, map_target_occurrencesAll cs,
      referencesAll]

end

mutual

/-- The references of a condition are there to ask policies for their verdicts. -/
theorem role_of_mem_occurrences : (c : Condition) → ∀ o ∈ c.occurrences,
    o.role ≠ .call ∧ o.role ≠ .defaultPolicy
  | .literal _ => fun _ ho => nomatch ho
  | .test _ => fun _ ho => nomatch ho
  | .inCall => fun _ ho => nomatch ho
  | .not c => role_of_mem_occurrences c
  | .all cs => role_of_mem_occurrencesAll cs
  | .any cs => role_of_mem_occurrencesAll cs
  | .firstMatch _ => List.forall_mem_map.mpr fun _ _ => by simp
  | .allMatch _ => List.forall_mem_map.mpr fun _ _ => by simp
  | .callPolicy _ => List.forall_mem_singleton.mpr (by simp)

theorem role_of_mem_occurrencesAll : (cs : List Condition) → ∀ o ∈ occurrencesAll cs,
    o.role ≠ .call ∧ o.role ≠ .defaultPolicy
  | [] => fun _ ho => nomatch ho
  | c :: cs => by
    rw [occurrencesAll]
    exact List.forall_mem_append.mpr ⟨role_of_mem_occurrences c, role_of_mem_occurrencesAll cs⟩

end

theorem mem_links_iff {c : Condition} {id : PolicyId} :
    id ∈ c.references.filterMap (·.link) ↔
      ∃ o ∈ c.occurrences, o.role ≠ .defaultPolicy ∧ o.target.link = some id := by
  rw [← map_target_occurrences, List.filterMap_map, List.mem_filterMap]
  exact exists_congr fun o =>
    and_congr_right fun ho => (and_iff_right (role_of_mem_occurrences c o ho).2).symm

end Condition

namespace Statement

mutual

theorem map_target_occurrences : (s : Statement) →
    s.occurrences.map (·.target) = s.references
  | .branch guard a b => by
    rw [occurrences, List.map_append, List.map_append, guard.map_target_occurrences,
      map_target_occurrencesAll a, map_target_occurrencesAll b, references]
  | .setDefaultPolicy _ => rfl
  | .call _ => rfl
  | .write _ _ => rfl
  | .comment _ => rfl
  | .control _ => rfl

/-- The references of a program, without their places. -/
theorem map_target_occurrencesAll : (ss : List Statement) →
    (occurrencesAll ss).map (·.target) = referencesAll ss
  | [] => rfl
  | s :: ss => by
    rw [occurrencesAll, List.map_append, map_target_occurrences s, map_target_occurrencesAll ss,
      referencesAll]

end

mutual

theorem mem_callees_iff {id : PolicyId} : (s : Statement) →
    (id ∈ s.callees ↔
      ∃ o ∈ s.occurrences, o.role ≠ .defaultPolicy ∧ o.target.link = some id)
  | .branch guard a b => by
    simp only [callees, occurrences, List.mem_append, Condition.mem_links_iff,
      mem_calleesAll_iff a, mem_calleesAll_iff b, or_and_right, exists_or]
  | .setDefaultPolicy _ => by simp [callees, occurrences]
  | .call target => by simp [callees, occurrences]
  | .write _ _ => by simp [callees, occurrences]
  | .comment _ => by simp [callees, occurrences]
  | .control _ => by simp [callees, occurrences]

/-- The policies that a program can call are those that a reference is linked to, unless it is only
there to name the default policy. -/
theorem mem_calleesAll_iff {id : PolicyId} : (ss : List Statement) →
    (id ∈ calleesAll ss ↔
      ∃ o ∈ occurrencesAll ss, o.role ≠ .defaultPolicy ∧ o.target.link = some id)
  | [] => by simp [calleesAll, occurrencesAll]
  | s :: ss => by
    simp only [calleesAll, occurrencesAll, List.mem_append, mem_callees_iff s,
      mem_calleesAll_iff ss, or_and_right, exists_or]

end

end Statement

/-! ## Replacing references -/

/-- A replaced reference in the same place. -/
def Occurrence.map (f : Reference → Reference) (o : Occurrence) : Occurrence :=
  { o with target := f o.target }

section

variable (f : Reference → Reference)

namespace Condition

mutual

theorem occurrences_mapReferences : (c : Condition) →
    (c.mapReferences f).occurrences = c.occurrences.map (·.map f)
  | .literal _ => rfl
  | .test _ => rfl
  | .inCall => rfl
  | .not c => occurrences_mapReferences c
  | .all cs => occurrencesAll_mapReferencesAll cs
  | .any cs => occurrencesAll_mapReferencesAll cs
  | .firstMatch _ => by
    rw [mapReferences, occurrences, occurrences, List.map_map, List.map_map]
    rfl
  | .allMatch _ => by
    rw [mapReferences, occurrences, occurrences, List.map_map, List.map_map]
    rfl
  | .callPolicy _ => rfl

theorem occurrencesAll_mapReferencesAll : (cs : List Condition) →
    occurrencesAll (mapReferencesAll f cs) = (occurrencesAll cs).map (·.map f)
  | [] => rfl
  | c :: cs => by
    rw [mapReferencesAll, occurrencesAll, occurrencesAll, List.map_append,
      occurrences_mapReferences c, occurrencesAll_mapReferencesAll cs]

end

end Condition

namespace Statement

mutual

theorem occurrences_mapReferences : (s : Statement) →
    (s.mapReferences f).occurrences = s.occurrences.map (·.map f)
  | .branch guard a b => by
    rw [mapReferences, occurrences, occurrences, List.map_append, List.map_append,
      guard.occurrences_mapReferences, occurrencesAll_mapReferencesAll a,
      occurrencesAll_mapReferencesAll b]
  | .setDefaultPolicy _ => rfl
  | .call _ => rfl
  | .write _ _ => rfl
  | .comment _ => rfl
  | .control _ => rfl

/-- A replacement of the references leaves every one in its place. -/
theorem occurrencesAll_mapReferencesAll : (ss : List Statement) →
    occurrencesAll (mapReferencesAll f ss) = (occurrencesAll ss).map (·.map f)
  | [] => rfl
  | s :: ss => by
    rw [mapReferencesAll, occurrencesAll, occurrencesAll, List.map_append,
      occurrences_mapReferences s, occurrencesAll_mapReferencesAll ss]

end

end Statement

end

end RoutePolicy
