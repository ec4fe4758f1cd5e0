import RoutePolicy.Proofs.Configuration.Converted
import RoutePolicy.Proofs.Registry.Linking

/-!
# What a conversion reports

A conversion reports what is found in the policy statements while they are compiled, and then what
is found when the registry is frozen.  Only the second part has findings about undefined policies,
and it has no others.

* `Registry.diagnosticsOf_defineAll` — storing policies adds no diagnostic;
* `PolicyStatement.noUndefinedPolicy_notices`, `Registry.mem_diagnosticsOf_freezeNotices` — the
  findings of the two parts;
* `Configuration.exists_converted_report` — the diagnostics of a conversion, in two parts.
-/

set_option autoImplicit false

namespace RoutePolicy

/-! ## Storing and freezing -/

namespace Registry

variable {r r' : Registry} {notices : List Notice}

theorem diagnosticsOf_define {p : Policy} (h : r.define p = .ok (notices, r')) :
    diagnosticsOf notices = [] := by
  unfold define at h
  split at h
  · cases h
  · split at h
    · split at h
      · cases h
        rfl
      · cases h
    · cases h
      rfl

/-- Storing policies reports no diagnostic besides those that were found while they were made. -/
theorem diagnosticsOf_defineAll {ds : List Definition}
    (h : r.defineAll ds = (notices, .ok r')) :
    diagnosticsOf notices = diagnosticsOf (ds.flatMap Definition.notices) := by
  induction ds generalizing r notices with
  | nil =>
    cases h
    rfl
  | cons d ds ih =>
    rw [defineAll] at h
    split at h
    · cases h
    · rename_i stored r₁ hdefine
      rcases hrest : r₁.defineAll ds with ⟨rest, result⟩
      rw [hrest, Prod.mk.injEq] at h
      obtain ⟨rfl, rfl⟩ := h
      rw [diagnosticsOf_append, diagnosticsOf_append, diagnosticsOf_define hdefine, ih hrest,
        List.append_nil, List.flatMap_cons, diagnosticsOf_append]

/-- The findings of a freeze are the references to undefined policies. -/
theorem mem_diagnosticsOf_freezeNotices {d : Diagnostic} :
    d ∈ diagnosticsOf r.freezeNotices ↔ ∃ p ∈ r.policies, ∃ ref ∈ p.dangling r.names,
      d = { policy := p.name, term := ref.term,
            finding := .undefinedReference .policy ref.name } := by
  simp only [diagnosticsOf_freezeNotices, List.mem_flatMap, List.mem_map, eq_comm]

end Registry

/-! ## Compiling -/

/-- No notice is about an undefined policy. -/
def NoUndefinedPolicy (notices : List Notice) : Prop :=
  ∀ d ∈ diagnosticsOf notices, ∀ name, d.finding ≠ .undefinedReference .policy name

namespace NoUndefinedPolicy

theorem append {notices notices' : List Notice} (h : NoUndefinedPolicy notices)
    (h' : NoUndefinedPolicy notices') : NoUndefinedPolicy (notices ++ notices') := by
  intro d hd
  rw [diagnosticsOf_append] at hd
  rcases List.mem_append.mp hd with hd | hd
  · exact h d hd
  · exact h' d hd

theorem flatMap {α : Type} {f : α → List Notice} {as : List α}
    (h : ∀ a ∈ as, NoUndefinedPolicy (f a)) : NoUndefinedPolicy (as.flatMap f) := by
  intro d hd
  rw [diagnosticsOf_flatMap] at hd
  obtain ⟨a, ha, hd⟩ := List.mem_flatMap.mp hd
  exact h a ha d hd

theorem events {notices : List Notice} (h : diagnosticsOf notices = []) :
    NoUndefinedPolicy notices := by
  intro d hd
  rw [h] at hd
  cases hd

theorem unsupportedNotices (policy : String) (term : Nat) (construct : String) :
    NoUndefinedPolicy (RoutePolicy.unsupportedNotices policy term construct) := by
  intro d hd name heq
  obtain rfl := List.mem_singleton.mp hd
  cases heq

theorem undefinedListNotices (policy : String) (term : Nat) (list : String) :
    NoUndefinedPolicy (RoutePolicy.undefinedListNotices policy term list) := by
  intro d hd name heq
  obtain rfl := List.mem_singleton.mp hd
  cases heq

theorem actionNotices (policy : String) (term : Nat) (actions : List ThenClause) :
    NoUndefinedPolicy (RoutePolicy.actionNotices policy term actions) :=
  flatMap fun _ _ => unsupportedNotices _ _ _

theorem kindNotices (lists : PrefixLists) (policy : String) (term : Nat)
    (clauses : List FromClause) (kind : ClauseKind) :
    NoUndefinedPolicy (kind.notices lists policy term clauses) := by
  cases kind with
  | prefixes => exact flatMap fun _ _ => undefinedListNotices _ _ _
  | unsupported =>
    refine flatMap fun clause _ => ?_
    cases clause <;> first | exact events rfl | exact unsupportedNotices _ _ _
  | _ => exact events rfl

theorem termNotices (lists : PrefixLists) (policy : String) (index : Nat) (t : Term) :
    NoUndefinedPolicy (t.notices lists policy index) := by
  have hfilters : NoUndefinedPolicy
      (t.activeFilters.flatMap fun f => RoutePolicy.actionNotices policy index f.actions) :=
    flatMap fun f _ => actionNotices policy index f.actions
  have hclauses : NoUndefinedPolicy (clauseNotices lists policy index t.clauses) :=
    flatMap fun kind _ => kindNotices lists policy index _ kind
  exact (hfilters.append (actionNotices policy index t.actions)).append hclauses

end NoUndefinedPolicy

/-- The findings of a compilation are about prefix lists and unsupported constructs. -/
theorem PolicyStatement.noUndefinedPolicy_notices (lists : PrefixLists) (s : PolicyStatement) :
    NoUndefinedPolicy (s.notices lists) := by
  refine NoUndefinedPolicy.append ?_ (.events rfl)
  rw [← List.flatMap_id]
  refine .flatMap fun notices hnotices => ?_
  obtain ⟨i, hi, rfl⟩ := List.mem_mapIdx.mp hnotices
  exact .termNotices lists s.name i _

/-! ## The whole conversion -/

namespace Configuration

variable {c : Configuration} {t : Table} {notices : List Notice}

/-- **What a conversion reports:** what is found in the policy statements, and then the undefined
references of the registry that is frozen. -/
theorem exists_converted_report (h : c.convert = (notices, .ok t)) :
    ∃ r, c.Converted r t ∧ diagnosticsOf notices =
      diagnosticsOf (c.policyStatements.flatMap (·.notices c.prefixLists)) ++
        diagnosticsOf (if c.simplify then r.simplifyAll else r).freezeNotices := by
  unfold convert at h
  split at h
  · cases h
  · rename_i defined r hdefineAll
    cases h
    refine ⟨r, converted_of_defineAll hdefineAll, ?_⟩
    rw [diagnosticsOf_append, diagnosticsOf_event, Registry.diagnosticsOf_defineAll hdefineAll,
      notices_definitions]

end Configuration

end RoutePolicy
