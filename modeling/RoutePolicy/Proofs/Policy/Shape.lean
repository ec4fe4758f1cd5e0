import RoutePolicy.Proofs.Policy.NormalForm

/-!
# The shape of programs

What can be simplified in a program depends on its shape, and not on the policies that it refers
to.  So a program is in normal form when it is so with other references.

* `Condition.invokesPolicies_mapReferences`, `Statement.alwaysEnds_mapReferences` — questions that
  simplification asks, which do not look at references;
* `Condition.isNormal_mapReferences`, `Statement.isNormal_mapReferences` — normal forms with the
  references replaced;
* `Policy.isNormal_of_same` — policies that are the same up to the terms of their references.
-/

set_option autoImplicit false

namespace RoutePolicy

variable (f : Reference → Reference)

namespace Condition

theorem mapReferencesAll_eq_map (cs : List Condition) :
    mapReferencesAll f cs = cs.map (mapReferences f) := by
  induction cs with
  | nil => rfl
  | cons c cs ih => rw [mapReferencesAll, ih, List.map_cons]

theorem isLiteral_mapReferences (c : Condition) : (c.mapReferences f).isLiteral = c.isLiteral := by
  cases c <;> rfl

theorem isNegation_mapReferences (c : Condition) :
    (c.mapReferences f).isNegation = c.isNegation := by
  cases c <;> rfl

theorem isConnective_mapReferences (neutral : Bool) (c : Condition) :
    (c.mapReferences f).isConnective neutral = c.isConnective neutral := by
  cases c <;> rfl

variable {f} in
theorem mapReferences_eq_literal {c : Condition} {value : Bool} :
    c.mapReferences f = .literal value ↔ c = .literal value := by
  cases c <;> simp [mapReferences]

mutual

theorem invokesPolicies_mapReferences : (c : Condition) →
    (c.mapReferences f).invokesPolicies = c.invokesPolicies
  | .not c => invokesPolicies_mapReferences c
  | .all cs => anyInvokes_mapReferencesAll cs
  | .any cs => anyInvokes_mapReferencesAll cs
  | .firstMatch _ | .allMatch _ | .callPolicy _ | .literal _ | .test _ | .inCall => rfl

theorem anyInvokes_mapReferencesAll : (cs : List Condition) →
    anyInvokes (mapReferencesAll f cs) = anyInvokes cs
  | [] => rfl
  | c :: cs => by
    rw [mapReferencesAll, anyInvokes, anyInvokes, invokesPolicies_mapReferences c,
      anyInvokes_mapReferencesAll cs]

end

/-- Whether a connective can do without one of its operands does not depend on references. -/
theorem normalOperands_map {neutral : Bool} {cs : List Condition} :
    NormalOperands neutral (cs.map (mapReferences f)) ↔ NormalOperands neutral cs := by
  have hflat : (∀ c ∈ cs.map (mapReferences f), c.isConnective neutral = false) ↔
      ∀ c ∈ cs, c.isConnective neutral = false := by
    simp only [List.forall_mem_map, isConnective_mapReferences]
  have hnone : (∀ c ∈ cs.map (mapReferences f), c.isLiteral = false) ↔
      ∀ c ∈ cs, c.isLiteral = false := by
    simp only [List.forall_mem_map, isLiteral_mapReferences]
  have hlast : (∃ front, cs.map (mapReferences f) = front ++ [.literal (!neutral)] ∧
        ∀ c ∈ front, c.invokesPolicies = true) ↔
      ∃ front, cs = front ++ [.literal (!neutral)] ∧ ∀ c ∈ front, c.invokesPolicies = true := by
    constructor
    · rintro ⟨_, hsplit, hfront⟩
      obtain ⟨front, last, rfl, rfl, hlast⟩ := List.map_eq_append_iff.mp hsplit
      obtain ⟨c, rfl, hc⟩ := List.map_eq_singleton_iff.mp hlast
      rw [mapReferences_eq_literal.mp hc]
      refine ⟨front, rfl, fun c hc => ?_⟩
      rw [← invokesPolicies_mapReferences f c]
      exact hfront _ (List.mem_map_of_mem hc)
    · rintro ⟨front, rfl, hfront⟩
      refine ⟨front.map (mapReferences f), by rw [List.map_append]; rfl, ?_⟩
      refine List.forall_mem_map.mpr fun c hc => ?_
      rw [invokesPolicies_mapReferences]
      exact hfront c hc
  constructor
  · rintro ⟨hlength, hkinds, hconstants⟩
    rw [List.length_map] at hlength
    exact ⟨hlength, hflat.mp hkinds, hconstants.imp hnone.mp hlast.mp⟩
  · rintro ⟨hlength, hkinds, hconstants⟩
    refine ⟨?_, hflat.mpr hkinds, hconstants.imp hnone.mpr hlast.mpr⟩
    rwa [List.length_map]

mutual

/-- A condition is normal when it is so with other references. -/
theorem isNormal_mapReferences : (c : Condition) → ((c.mapReferences f).IsNormal ↔ c.IsNormal)
  | .not c => by
    rw [mapReferences, IsNormal, IsNormal, isLiteral_mapReferences, isNegation_mapReferences,
      isNormal_mapReferences c]
  | .all cs => by
    rw [mapReferences, IsNormal, IsNormal, allNormal_mapReferencesAll cs, mapReferencesAll_eq_map,
      normalOperands_map]
  | .any cs => by
    rw [mapReferences, IsNormal, IsNormal, allNormal_mapReferencesAll cs, mapReferencesAll_eq_map,
      normalOperands_map]
  | .firstMatch targets => not_congr List.map_eq_nil_iff
  | .allMatch targets => not_congr List.map_eq_nil_iff
  | .literal _ | .test _ | .callPolicy _ | .inCall => Iff.rfl

theorem allNormal_mapReferencesAll : (cs : List Condition) →
    (AllNormal (mapReferencesAll f cs) ↔ AllNormal cs)
  | [] => Iff.rfl
  | c :: cs => by
    rw [mapReferencesAll, AllNormal, AllNormal, isNormal_mapReferences c,
      allNormal_mapReferencesAll cs]

end

end Condition

namespace Statement

mutual

theorem alwaysEnds_mapReferences : (s : Statement) →
    (s.mapReferences f).alwaysEnds = s.alwaysEnds
  | .branch _ a b => by
    rw [mapReferences, alwaysEnds, alwaysEnds, someEnds_mapReferencesAll a,
      someEnds_mapReferencesAll b]
  | .control _ | .write _ _ | .setDefaultPolicy _ | .call _ | .comment _ => rfl

theorem someEnds_mapReferencesAll : (ss : List Statement) →
    someEnds (mapReferencesAll f ss) = someEnds ss
  | [] => rfl
  | s :: ss => by
    rw [mapReferencesAll, someEnds, someEnds, alwaysEnds_mapReferences s,
      someEnds_mapReferencesAll ss]

end

theorem mapReferencesAll_eq_nil {ss : List Statement} :
    mapReferencesAll f ss = [] ↔ ss = [] := by
  cases ss <;> simp [mapReferencesAll]

theorem needed_mapReferences {guard : Condition} {a b : List Statement} :
    Needed (guard.mapReferences f) (mapReferencesAll f a) (mapReferencesAll f b) ↔
      Needed guard a b := by
  constructor
  · rintro ⟨hundecided, heffective⟩
    rw [guard.isLiteral_mapReferences f] at hundecided
    refine ⟨hundecided, fun ha hb => ?_⟩
    rw [← guard.invokesPolicies_mapReferences f]
    exact heffective ((mapReferencesAll_eq_nil f).mpr ha) ((mapReferencesAll_eq_nil f).mpr hb)
  · rintro ⟨hundecided, heffective⟩
    refine ⟨(guard.isLiteral_mapReferences f).trans hundecided, fun ha hb => ?_⟩
    rw [guard.invokesPolicies_mapReferences f]
    exact heffective ((mapReferencesAll_eq_nil f).mp ha) ((mapReferencesAll_eq_nil f).mp hb)

mutual

/-- A statement is normal when it is so with other references. -/
theorem isNormal_mapReferences : (s : Statement) → ((s.mapReferences f).IsNormal ↔ s.IsNormal)
  | .branch guard a b => by
    rw [mapReferences, IsNormal, IsNormal, needed_mapReferences, guard.isNormal_mapReferences f,
      isNormalAll_mapReferencesAll a, isNormalAll_mapReferencesAll b]
  | .comment _ | .control _ | .write _ _ | .setDefaultPolicy _ | .call _ => Iff.rfl

theorem isNormalAll_mapReferencesAll : (ss : List Statement) →
    (IsNormalAll (mapReferencesAll f ss) ↔ IsNormalAll ss)
  | [] => Iff.rfl
  | s :: ss => by
    rw [mapReferencesAll, IsNormalAll, IsNormalAll, isNormal_mapReferences s,
      alwaysEnds_mapReferences, mapReferencesAll_eq_nil, isNormalAll_mapReferencesAll ss]

end

end Statement

namespace Policy

theorem isNormal_mapReferences (p : Policy) : (p.mapReferences f).IsNormal ↔ p.IsNormal :=
  Statement.isNormalAll_mapReferencesAll f p.statements

/-- Policies that are the same up to the terms of their references are both normal or neither. -/
theorem isNormal_of_same {p q : Policy} (h : p.same q = true) : p.IsNormal ↔ q.IsNormal := by
  rw [← p.isNormal_mapReferences Reference.withoutTerm, eq_of_beq h, isNormal_mapReferences]

end Policy

end RoutePolicy
