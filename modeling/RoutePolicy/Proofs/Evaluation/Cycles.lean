import RoutePolicy.Proofs.Evaluation.Following
import RoutePolicy.Proofs.Table.Frozen

/-!
# Cycles that are reported

A cycle is reported when a policy is to be entered that is running already, and when a default
policy is to take over that had its top-level run before.  The path of the report consists of edges
of the table in both cases: of calls in the first one, and of default policies that each policy can
come to in the second one.

* `EndsInCycle` — the shape of the path;
* `Machine.cycle_of_report` — what a cycle says that is reported at a moment;
* `Table.evaluate_callCycles` — all cycles of an evaluation.
-/

set_option autoImplicit false

namespace RoutePolicy

/-- The path ends at a policy where it has been exactly once before, and comes there from `policy`;
it has not been anywhere else twice. -/
structure EndsInCycle (path : List String) (policy : String) : Prop where
  two_le : 2 ≤ path.length
  nodup : path.dropLast.Nodup
  last_once : ∀ last, path.getLast? = some last → path.dropLast.count last = 1
  from_policy : path.dropLast.getLast? = some policy

/-! ## Names of places -/

namespace Table

variable {t : Table} {ids : List PolicyId} {id i : PolicyId}

theorem isChain_map_nameOf {R : PolicyId → PolicyId → Prop} (hids : t.Within ids)
    (h : ids.IsChain R) : (ids.map t.nameOf).IsChain (t.ByName R) := by
  rw [List.isChain_map]
  refine h.imp_of_mem_imp fun i j hi hj hij => ?_
  exact ⟨i, j, idOf?_nameOf (hids i hi), idOf?_nameOf (hids j hj), hij⟩

theorem Places.nodup_map_nameOf (h : t.Places ids) : (ids.map t.nameOf).Nodup := by
  refine h.nodup.map_on fun i hi j hj hij => ?_
  have hi' := idOf?_nameOf (h.within i hi)
  rw [hij, idOf?_nameOf (h.within j hj)] at hi'
  exact (Option.some.inj hi').symm

theorem Places.endsInCycle (h : t.Places ids) (hid : id ∈ ids) (hlast : ids.getLast? = some i) :
    EndsInCycle ((ids ++ [id]).map t.nameOf) (t.nameOf i) := by
  have hpos : 0 < ids.length := List.length_pos_of_mem hid
  rw [List.map_append, List.map_singleton]
  constructor
  · rw [List.length_append, List.length_map, List.length_singleton]
    omega
  · rw [List.dropLast_concat]
    exact h.nodup_map_nameOf
  · rw [List.dropLast_concat, List.getLast?_concat]
    rintro _ ⟨⟩
    exact List.count_eq_one_of_mem h.nodup_map_nameOf (List.mem_map_of_mem hid)
  · rw [List.dropLast_concat, List.getLast?_map, hlast, Option.map_some]

end Table

namespace Machine

variable {t : Table} {s : Settings} {d : Direction} {st : Running}

/-! ## What a moment reports -/

/-- What is entered is called by the policy that runs. -/
theorem Running.FollowsFrom.calls_target {root i : PolicyId} {below : List PolicyId}
    (h : st.FollowsFrom t root i below) {a : Attempt} (hattempt : st.attempt? = some a)
    {id : PolicyId} (hlink : a.target.link = some id) : t.Calls i id := by
  have hfollows := h.control
  unfold Running.attempt? at hattempt
  split at hattempt
  case h_5 => cases hattempt
  all_goals
    rename_i hcontrol
    cases hattempt
    rw [hcontrol] at hfollows
    exact hfollows.1.refers List.mem_cons_self (by simp) hlink

/-- A cycle that is reported when a policy is to be entered consists of calls, and one that is
reported at the end of a top-level run of default policies. -/
theorem cycle_of_report (hfollows : st.Follows t) (hsound : Sound t st) {notices : List Notice}
    (h : Report t s st notices) {x : Diagnostic} (hx : x ∈ diagnosticsOf notices)
    {path : List String} (hpath : x.finding = .callCycle path) :
    EndsInCycle path x.policy ∧
      ((∃ a, st.attempt? = some a) ∧ path.IsChain (t.ByName t.Calls) ∨
        (∃ flow, st.control = .leaves flow .topLevel) ∧ path.IsChain (t.ByName t.FallsTo)) := by
  obtain ⟨root, i, below, hfrom⟩ := hfollows
  cases h with
  | silent _ hsilent =>
    rw [hsilent] at hx
    cases hx
  | refuses a _ hattempt hrefusal =>
    cases hrefusal with
    | cycle id callee hlink hg hruns =>
      cases List.mem_singleton.mp hx
      cases hpath
      have htop : st.callStack.getLast? = some i := by
        rw [hfrom.callStack_eq, List.getLast?_concat]
      refine ⟨hfrom.policy_eq ▸ hsound.stack.endsInCycle hruns htop, .inl ⟨⟨a, hattempt⟩, ?_⟩⟩
      exact Table.isChain_map_nameOf (hsound.stack.within.append hg)
        (isChain_concat hfrom.isChain htop (hfrom.calls_target hattempt hlink))
    | depth id callee hlink hg hfresh hdeep =>
      cases List.mem_singleton.mp hx
      cases hpath
  | repeats flow id _ hcontrol hending hdiagnostics =>
    rw [hdiagnostics] at hx
    cases List.mem_singleton.mp hx
    cases hpath
    have hwaiting := hfrom.control
    rw [hcontrol] at hwaiting
    obtain ⟨rfl, -, hdefault⟩ := hwaiting
    obtain ⟨hseen, hcurrent⟩ := t.of_ending_repeats hending
    refine ⟨hfrom.policy_eq ▸ hsound.visited.endsInCycle hseen hfrom.last_eq,
      .inr ⟨⟨flow, hcontrol⟩, ?_⟩⟩
    obtain ⟨p, hg⟩ := Table.exists_get?_iff.mpr (hsound.visited.within id hseen)
    exact Table.isChain_map_nameOf (hsound.visited.within.append hg)
      (isChain_concat hfrom.falls hfrom.last_eq (hdefault id hcurrent))

theorem cycle_of_stepReports {policy : String} {route : Route} {n : Nat}
    (hafter : after t s d policy route n = .running st) {x : Diagnostic}
    (hx : StepReports t s d st x) {path : List String} (hpath : x.finding = .callCycle path) :
    EndsInCycle path x.policy ∧
      ((∃ a, st.attempt? = some a) ∧ path.IsChain (t.ByName t.Calls) ∨
        (∃ flow, st.control = .leaves flow .topLevel) ∧ path.IsChain (t.ByName t.FallsTo)) := by
  obtain ⟨notices, hreport, hmem⟩ := hx.report
  exact cycle_of_report (follows_after policy route n hafter) (sound_after policy route n hafter)
    hreport hmem hpath

end Machine

/-- **Every reported cycle is genuine.**  Its path ends where it has been exactly once before, and
comes there from the policy that the report is attributed to.  It is reported by a step that either
tries to enter a policy or ends a top-level run.  In the first case each policy of the path calls
the next one; in the second case it makes the next one the default policy, or a policy does that it
comes to by call statements. -/
theorem Table.evaluate_callCycles (t : Table) (s : Settings) (policy : String) (route : Route)
    (d : Direction) :
    (∀ x ∈ diagnosticsOf (t.evaluate s policy route d).1, ∀ path, x.finding = .callCycle path →
      EndsInCycle path x.policy ∧
      ∃ n st, Machine.after t s d policy route n = .running st ∧
        Machine.StepReports t s d st x) ∧
    (∀ n st x path, Machine.after t s d policy route n = .running st →
      Machine.StepReports t s d st x → x.finding = .callCycle path →
      (∃ a, st.attempt? = some a) ∧ path.IsChain (t.ByName t.Calls) ∨
        (∃ flow, st.control = .leaves flow .topLevel) ∧
          path.IsChain (t.ByName t.FallsTo)) := by
  constructor
  · intro x hx path hpath
    obtain ⟨n, notices, result, hafter, hevaluate⟩ := Machine.exists_halted t s d policy route
    have hreported : x ∈ diagnosticsOf (Machine.after t s d policy route n).notices := by
      rw [hafter]
      rw [hevaluate] at hx
      exact hx
    rcases Machine.exists_stepReports policy route n hreported with hstart | ⟨m, st, hst, hstep⟩
    · rw [hpath] at hstart
      cases hstart
    · exact ⟨(Machine.cycle_of_stepReports hst hstep hpath).1, m, st, hst, hstep⟩
  · intro n st x path hst hstep hpath
    exact (Machine.cycle_of_stepReports hst hstep hpath).2

/-- The default policy that leads back to the policy is set by another one, which it calls. -/
example :
    let t : Table :=
      { policies := [
          { name := "a", statements := [.call { name := "b", link := some ⟨1⟩ }] },
          { name := "b", statements := [.setDefaultPolicy { name := "a", link := some ⟨0⟩ }] }]
        ascending := by decide }
    diagnosticsOf (Machine.after t {} .inbound "a" {} 8).notices =
      [{ policy := "a", finding := .callCycle ["a", "a"] }] := by
  decide

end RoutePolicy
