import RoutePolicy.Proofs.Evaluation.Attempts

/-!
# The bound on nested calls

The bound only matters to evaluations that run into it.  One that does not is the same under every
larger bound, and when there are no more policies than one more than the bound, none does, because
a stack of running policies holds no policy twice.

* `exceededDepths` — the depths at which notices report that calls nest too deep;
* `Machine.exceededDepths_after` — what has been reported at any moment;
* `Machine.after_maxCallDepth` — the runs under two bounds, step by step;
* `Table.evaluate_maxCallDepth` — evaluations under every bound.
-/

set_option autoImplicit false

namespace RoutePolicy

/-- The depth in the diagnostic of calls that nest too deep. -/
def Diagnostic.exceededDepth? (diagnostic : Diagnostic) : Option Nat :=
  match diagnostic.finding with
  | .callDepthExceeded depth => some depth
  | _ => none

/-- The depths at which notices report that calls nest too deep. -/
def exceededDepths (notices : List Notice) : List Nat :=
  (diagnosticsOf notices).filterMap Diagnostic.exceededDepth?

theorem exceededDepths_append (ns ms : List Notice) :
    exceededDepths (ns ++ ms) = exceededDepths ns ++ exceededDepths ms := by
  rw [exceededDepths, diagnosticsOf_append, List.filterMap_append, exceededDepths, exceededDepths]

theorem exceededDepths_depthNotices (policy : String) (depth : Nat) :
    exceededDepths (Table.depthNotices policy depth) = [depth] := rfl

namespace Machine

variable {t : Table} {s : Settings} {d : Direction}

/-! ## What is reported -/

/-- A step reports nothing but the depth at which it finds the stack, and only when a policy that
is not running may not be entered any more. -/
theorem exceededDepths_report {st : Running} {notices : List Notice}
    (h : Report t s st notices) {depth : Nat} (hdepth : depth ∈ exceededDepths notices) :
    depth = st.callDepth ∧ s.maxCallDepth ≤ st.callDepth ∧
      ∃ id p, t.get? id = some p ∧ id ∉ st.callStack := by
  cases h with
  | silent _ hsilent =>
    rw [exceededDepths, hsilent] at hdepth
    cases hdepth
  | refuses a _ _ hrefusal =>
    cases hrefusal with
    | cycle id callee _ hg _ => cases hdepth
    | depth id callee _ hg hfresh hdeep =>
      rw [exceededDepths_depthNotices, List.mem_singleton] at hdepth
      exact ⟨hdepth, hdeep, id, callee, hg, hfresh⟩
  | repeats flow id _ _ _ hdiagnostics =>
    rw [exceededDepths, hdiagnostics] at hdepth
    cases hdepth

/-- Calls that nest too deep are reported at the bound, and on tables only that have at least two
policies more than the bound: those on the stack and the one that may not be entered. -/
theorem exceededDepths_after (policy : String) (route : Route) (n : Nat) {depth : Nat}
    (h : depth ∈ exceededDepths (after t s d policy route n).notices) :
    depth = s.maxCallDepth ∧ s.maxCallDepth + 1 < t.size := by
  obtain ⟨x, hx, hdepth⟩ := List.mem_filterMap.mp h
  rcases exists_stepReports policy route n hx with hstart | ⟨m, st, hst, hstep⟩
  · rw [Diagnostic.exceededDepth?, hstart] at hdepth
    cases hdepth
  · obtain ⟨notices, hreport, hmem⟩ := hstep.report
    obtain ⟨rfl, hdeep, id, p, hg, hfresh⟩ :=
      exceededDepths_report hreport (List.mem_filterMap.mpr ⟨x, hmem, hdepth⟩)
    have hle := callDepth_le_after policy route m hst
    have hsound := sound_after policy route m hst
    have hlength := (hsound.stack.append hfresh hg).length_le
    have hbound := hsound.depth
    rw [List.length_append, List.length_singleton] at hlength
    exact ⟨Nat.le_antisymm hle hdeep, by omega⟩

/-! ## Runs under two bounds -/

section

variable {bound : Nat} (hbound : s.maxCallDepth ≤ bound)

include hbound

/-- Under a larger bound the same happens, unless calls are reported to nest too deep. -/
theorem enter_maxCallDepth {st : Running} {r : Reference} {waits : Policy → OnFlow}
    {absent refused : Control}
    (hquiet : exceededDepths (enter t s st r waits absent refused).notices = []) :
    enter t { s with maxCallDepth := bound } st r waits absent refused =
      enter t s st r waits absent refused := by
  unfold enter at hquiet ⊢
  cases hfound : r.link.bind fun id => (t.get? id).map (id, ·) with
  | none => rfl
  | some found =>
    obtain ⟨id, callee⟩ := found
    rw [hfound] at hquiet
    simp only at hquiet ⊢
    by_cases hruns : id ∈ st.callStack
    · rw [if_pos hruns, if_pos hruns]
    by_cases hdeep : s.maxCallDepth ≤ st.callDepth
    · rw [if_neg hruns, if_pos hdeep] at hquiet
      simp [exceededDepths_append, exceededDepths_depthNotices] at hquiet
    · have hdeep' : ¬bound ≤ st.callDepth := by omega
      rw [if_neg hruns, if_neg hruns, if_neg hdeep, if_neg hdeep']

theorem step_maxCallDepth {st : Running}
    (hquiet : exceededDepths (step t s d (.running st)).notices = []) :
    step t { s with maxCallDepth := bound } d (.running st) = step t s d (.running st) := by
  cases hattempt : st.attempt? with
  | some a =>
    rw [step_of_attempt? hattempt] at hquiet
    rw [step_of_attempt? hattempt, step_of_attempt? hattempt]
    cases a with
    | inPlace target next => exact congrArg State.running (enter_maxCallDepth hbound hquiet)
    | forVerdict target next => exact congrArg State.running (enter_maxCallDepth hbound hquiet)
  | none =>
    -- only attempts to enter a policy depend on the bound
    rw [step, step]
    cases hcontrol : st.control with
    | runs ss next =>
      rw [Running.attempt?, hcontrol] at hattempt
      cases ss with
      | nil => rfl
      | cons statement ss =>
        cases statement with
        | call target => cases hattempt
        | _ => rfl
    | judges c next =>
      obtain ⟨control, hjudge⟩ := judgeNext_of_attempt? hcontrol hattempt
      simp only [hjudge]
    | leaves flow next => cases next <;> rfl
    | gives v next => rfl

/-- As long as no calls are reported to nest too deep, the run is the same under a larger bound. -/
theorem after_maxCallDepth (policy : String) (route : Route) (n : Nat)
    (hquiet : exceededDepths (after t s d policy route n).notices = []) :
    after t { s with maxCallDepth := bound } d policy route n = after t s d policy route n := by
  induction n with
  | zero => rfl
  | succ n ih =>
    cases hprevious : after t s d policy route n with
    | halted notices result =>
      have hover := after_of_halted hprevious (Nat.le_succ n)
      rw [hover] at hquiet
      rw [hprevious] at ih
      rw [hover, after, ih hquiet, step]
    | running st =>
      obtain ⟨notices, hnotices, -⟩ := report_step (t := t) (s := s) (d := d) st
      rw [after_succ_of_running hprevious] at hquiet
      have hbefore : exceededDepths st.notices = [] := by
        rw [hnotices, exceededDepths_append] at hquiet
        exact (List.append_eq_nil_iff.mp hquiet).1
      rw [hprevious] at ih
      rw [after_succ_of_running hprevious, after_succ_of_running (ih hbefore)]
      exact step_maxCallDepth hbound hquiet

end

end Machine

/-- **The bound on nested calls does not matter once it is large enough.**  With at most one policy
more than the bound, no evaluation reports that calls nest too deep.  An evaluation that does not
report it has the same result and the same notices under every larger bound.  One that does reports
the bound as the depth, always. -/
theorem Table.evaluate_maxCallDepth (t : Table) (s : Settings) (policy : String) (route : Route)
    (d : Direction) :
    (t.size ≤ s.maxCallDepth + 1 → exceededDepths (t.evaluate s policy route d).1 = []) ∧
    (exceededDepths (t.evaluate s policy route d).1 = [] → ∀ bound, s.maxCallDepth ≤ bound →
      t.evaluate { s with maxCallDepth := bound } policy route d =
        t.evaluate s policy route d) ∧
    (∀ depth ∈ exceededDepths (t.evaluate s policy route d).1, depth = s.maxCallDepth) := by
  obtain ⟨n, notices, result, hafter, hevaluate⟩ := Machine.exists_halted t s d policy route
  have hnotices : (Machine.after t s d policy route n).notices = notices := by
    rw [hafter]
    rfl
  have hreported : ∀ depth ∈ exceededDepths notices,
      depth = s.maxCallDepth ∧ s.maxCallDepth + 1 < t.size := by
    intro depth hdepth
    rw [← hnotices] at hdepth
    exact Machine.exceededDepths_after policy route n hdepth
  rw [hevaluate]
  refine ⟨fun hsize => ?_, fun hquiet bound hbound => ?_, fun depth h => (hreported depth h).1⟩
  · refine List.eq_nil_iff_forall_not_mem.mpr fun depth hdepth => ?_
    exact absurd (hreported depth hdepth).2 (by omega)
  · have hquiet' : exceededDepths (Machine.after t s d policy route n).notices = [] := by
      rw [hnotices]
      exact hquiet
    have hsame := Machine.after_maxCallDepth hbound policy route n hquiet'
    exact Machine.evaluate_of_halted (hsame.trans hafter)

/-- With two policies more than the bound, the last of them is one too many. -/
example :
    let t : Table :=
      { policies := [
          { name := "a", statements := [.call { name := "b", link := some ⟨1⟩ }] },
          { name := "b", statements := [] }]
        ascending := by decide }
    diagnosticsOf (Machine.after t { maxCallDepth := 0 } .inbound "a" {} 4).notices =
      [{ policy := "a", finding := .callDepthExceeded 0 }] := by
  decide

end RoutePolicy
