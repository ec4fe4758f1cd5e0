import Mathlib.Data.List.Dedup
import RoutePolicy.Diagnostic.Report

/-!
# What a report tells about its diagnostics

A report counts its diagnostics by kind and selects those of a policy.  Every diagnostic is of one
kind and belongs to one policy, so neither leaves one out or takes one twice.

* `Report.total_counts` — the counts add up to the number of diagnostics;
* `Report.mem_forPolicy`, `Report.perm_selections` — the selections of all policies are the
  diagnostics of the report.
-/

set_option autoImplicit false

namespace RoutePolicy

namespace Report

variable (r : Report)

theorem total_counts :
    r.counts.undefinedReferences + r.counts.unsupportedConstructs + r.counts.callCycles +
      r.counts.depthExceeded = r.diagnostics.length := by
  obtain ⟨ds, _⟩ := r
  induction ds with
  | nil => rfl
  | cons d ds ih =>
    simp only [counts, count] at ih
    simp only [counts, count, List.countP_cons, List.length_cons, ← ih]
    -- just one of the four tests holds of a finding
    cases d.finding <;> simp only [if_true, if_false, Bool.false_eq_true] <;> omega

variable {r}

theorem mem_forPolicy {d : Diagnostic} {policy : String} :
    d ∈ r.forPolicy policy ↔ d ∈ r.diagnostics ∧ d.policy = policy := by
  rw [forPolicy, List.mem_filter, beq_iff_eq]

variable (r)

theorem sublist_forPolicy (policy : String) : (r.forPolicy policy).Sublist r.diagnostics :=
  List.filter_sublist

/-- The selections of different policies, one behind the other, are the diagnostics of these
policies. -/
theorem perm_flatMap_forPolicy {policies : List String} (h : policies.Nodup) :
    (policies.flatMap r.forPolicy).Perm
      (r.diagnostics.filter fun d => decide (d.policy ∈ policies)) := by
  induction policies with
  | nil => simp
  | cons policy rest ih =>
    obtain ⟨hpolicy, hrest⟩ := List.nodup_cons.mp h
    -- of the diagnostics that are left, split off those of the first policy
    have hsplit := List.filter_append_perm (fun d : Diagnostic => d.policy == policy)
      (r.diagnostics.filter fun d => decide (d.policy ∈ policy :: rest))
    have hfirst : (r.diagnostics.filter fun d => decide (d.policy ∈ policy :: rest)).filter
        (fun d => d.policy == policy) = r.forPolicy policy := by
      rw [List.filter_filter, forPolicy]
      refine List.filter_congr fun d _ => ?_
      by_cases hd : d.policy = policy <;> simp [hd]
    have hothers : (r.diagnostics.filter fun d => decide (d.policy ∈ policy :: rest)).filter
        (fun d => !(d.policy == policy)) =
          r.diagnostics.filter fun d => decide (d.policy ∈ rest) := by
      rw [List.filter_filter]
      refine List.filter_congr fun d _ => ?_
      by_cases hd : d.policy = policy
      · simp [hd, hpolicy]
      · simp [hd]
    rw [hfirst, hothers] at hsplit
    rw [List.flatMap_cons]
    exact ((ih hrest).append_left _).trans hsplit

/-- The policies that a report tells something about. -/
def policies : List String := (r.diagnostics.map (·.policy)).dedup

theorem perm_selections : (r.policies.flatMap r.forPolicy).Perm r.diagnostics := by
  have hall : (r.diagnostics.filter fun d => decide (d.policy ∈ r.policies)) = r.diagnostics := by
    refine List.filter_eq_self.mpr fun d hd => ?_
    rw [decide_eq_true_eq, policies, List.mem_dedup]
    exact List.mem_map_of_mem hd
  exact hall ▸ r.perm_flatMap_forPolicy (List.nodup_dedup _)

end Report

end RoutePolicy
