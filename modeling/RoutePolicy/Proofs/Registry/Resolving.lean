import RoutePolicy.Proofs.Lowering
import RoutePolicy.Proofs.Policy.References
import RoutePolicy.Table

/-!
# Linking in one pass

The linked policies of a registry and the report of its undefined references are defined apart from
each other.  Here they come out of one pass, which looks every reference up where it stands, and
reports it there and then when its name is undefined.

* `Reference.resolve`, `Condition.resolve`, `Statement.resolveAll`, `Policy.resolve`,
  `Registry.resolve` — the pass, by the levels of the syntax;
* `Registry.yields_resolve` — the pass gives the linked policies and reports the notices.
-/

set_option autoImplicit false

namespace RoutePolicy

/-! ## The pass -/

section

variable (names : List String) (policy : String)

/-- Looks the name of a reference up. -/
def Reference.resolve (r : Reference) : Lowering (Option Reference) :=
  match placeOf names r.name with
  | some id => return some (r.linked id)
  | none => do
    Lowering.report (undefinedNotices policy r)
    return none

/-- Looks the name of a reference up, and keeps the reference when the name is undefined. -/
def Reference.resolveOrKeep (r : Reference) : Lowering Reference := do
  let found ← r.resolve names policy
  return found.getD r

namespace Condition

mutual

/-- Links the references of a condition. -/
def resolve : Condition → Lowering Condition
  | .not c => do
    let c ← resolve c
    return .not c
  | .all cs => do
    let cs ← resolveAll cs
    return .all cs
  | .any cs => do
    let cs ← resolveAll cs
    return .any cs
  | .firstMatch targets => do
    let found ← targets.mapM (·.resolve names policy)
    return .firstMatch (found.filterMap id)
  | .allMatch targets => do
    let targets ← targets.mapM (·.resolveOrKeep names policy)
    return .allMatch targets
  | .callPolicy target => do
    let target ← target.resolveOrKeep names policy
    return .callPolicy target
  | .literal b => return .literal b
  | .test p => return .test p
  | .inCall => return .inCall

/-- Links the references of several conditions. -/
def resolveAll : List Condition → Lowering (List Condition)
  | [] => return []
  | c :: cs => do
    let c ← resolve c
    let cs ← resolveAll cs
    return c :: cs

end

end Condition

namespace Statement

mutual

/-- Links the references of a statement, unless it has to be dropped. -/
def resolve : Statement → Lowering (Option Statement)
  | .branch guard a b => do
    let guard ← guard.resolve names policy
    let a ← resolveAll a
    let b ← resolveAll b
    return some (.branch guard a b)
  | .call target => do
    let found ← target.resolve names policy
    return found.map .call
  | .setDefaultPolicy target => do
    let found ← target.resolve names policy
    return found.map .setDefaultPolicy
  | .write field update => return some (.write field update)
  | .comment text => return some (.comment text)
  | .control kind => return some (.control kind)

/-- Links the references of several statements, of which some may be dropped. -/
def resolveAll : List Statement → Lowering (List Statement)
  | [] => return []
  | s :: ss => do
    let found ← resolve s
    let ss ← resolveAll ss
    return found.toList ++ ss

end

end Statement

end

/-- Links the references of a policy and forgets its sources. -/
def Policy.resolve (names : List String) (p : Policy) : Lowering Policy := do
  let statements ← Statement.resolveAll names p.name p.statements
  return { p with statements, sources := .empty }

/-- Links the references of all policies. -/
def Registry.resolve (r : Registry) : Lowering (List Policy) := r.policies.mapM (·.resolve r.names)

/-! ## What the pass gives -/

section

variable (names : List String) (policy : String)

/-- What is reported for a reference. -/
def Reference.linkNotices (r : Reference) : List Notice :=
  if (placeOf names r.name).isNone then undefinedNotices policy r else []

theorem Reference.yields_resolve (r : Reference) :
    Lowering.Yields (r.resolve names policy) (r.link? names) (r.linkNotices names policy) := by
  unfold resolve link? linkNotices
  cases placeOf names r.name with
  | some id => exact .pure _
  | none => exact (Lowering.Yields.report _).andReturn _

theorem Reference.yields_resolveOrKeep (r : Reference) :
    Lowering.Yields (r.resolveOrKeep names policy) (r.linkOrKeep names)
      (r.linkNotices names policy) :=
  (r.yields_resolve names policy).andReturn _

namespace Condition

mutual

theorem yields_resolve : (c : Condition) →
    Lowering.Yields (c.resolve names policy) (c.link names)
      (c.references.flatMap (·.linkNotices names policy))
  | .not c => (yields_resolve c).andReturn _
  | .all cs => (yields_resolveAll cs).andReturn _
  | .any cs => (yields_resolveAll cs).andReturn _
  | .firstMatch targets => by
    have hfound := Lowering.Yields.mapM fun r (_ : r ∈ targets) => r.yields_resolve names policy
    have hvalue : (targets.map (·.link? names)).filterMap id =
        targets.filterMap (·.link? names) := by
      rw [List.filterMap_map, Function.id_comp]
    rw [link, references, ← hvalue]
    exact hfound.andReturn _
  | .allMatch targets => by
    have hfound := Lowering.Yields.mapM fun r (_ : r ∈ targets) =>
      r.yields_resolveOrKeep names policy
    exact hfound.andReturn _
  | .callPolicy target => by
    rw [references, List.flatMap_singleton]
    exact (target.yields_resolveOrKeep names policy).andReturn _
  | .literal _ => .pure _
  | .test _ => .pure _
  | .inCall => .pure _

theorem yields_resolveAll : (cs : List Condition) →
    Lowering.Yields (resolveAll names policy cs) (linkAll names cs)
      ((referencesAll cs).flatMap (·.linkNotices names policy))
  | [] => .pure []
  | c :: cs => by
    rw [referencesAll, List.flatMap_append]
    exact (yields_resolve c).bind ((yields_resolveAll cs).andReturn _)

end

end Condition

namespace Statement

mutual

theorem yields_resolve : (s : Statement) →
    Lowering.Yields (s.resolve names policy) (s.link? names)
      (s.references.flatMap (·.linkNotices names policy))
  | .branch guard a b => by
    rw [references, List.flatMap_append, List.flatMap_append, List.append_assoc]
    exact (guard.yields_resolve names policy).bind
      ((yields_resolveAll a).bind ((yields_resolveAll b).andReturn _))
  | .call target => by
    rw [references, List.flatMap_singleton]
    exact (target.yields_resolve names policy).andReturn _
  | .setDefaultPolicy target => by
    rw [references, List.flatMap_singleton]
    exact (target.yields_resolve names policy).andReturn _
  | .write _ _ => .pure _
  | .comment _ => .pure _
  | .control _ => .pure _

/-- The references of a program are reported in the order of their occurrence. -/
theorem yields_resolveAll : (ss : List Statement) →
    Lowering.Yields (resolveAll names policy ss) (linkAll names ss)
      ((referencesAll ss).flatMap (·.linkNotices names policy))
  | [] => .pure []
  | s :: ss => by
    have hlinked : linkAll names (s :: ss) = (s.link? names).toList ++ linkAll names ss := by
      rw [linkAll]
      cases s.link? names <;> rfl
    rw [referencesAll, List.flatMap_append, hlinked]
    exact (yields_resolve s).bind ((yields_resolveAll ss).andReturn _)

end

end Statement

theorem Policy.yields_resolve (p : Policy) :
    Lowering.Yields (p.resolve names) (p.link names) (p.linkNotices names) := by
  have hnotices : p.linkNotices names =
      (Statement.referencesAll p.statements).flatMap (·.linkNotices names p.name) := by
    rw [linkNotices, dangling]
    induction Statement.referencesAll p.statements with
    | nil => rfl
    | cons r rs ih =>
      rw [List.flatMap_cons, ← ih, Reference.linkNotices, List.filter_cons]
      split <;> rfl
  rw [hnotices]
  exact (Statement.yields_resolveAll names p.name p.statements).andReturn _

end

/-- **The linked policies and the report come out of one pass.** -/
theorem Registry.yields_resolve (r : Registry) :
    Lowering.Yields r.resolve r.linked r.freezeNotices :=
  Lowering.Yields.mapM fun p _ => p.yields_resolve r.names

end RoutePolicy
