import RoutePolicy.Proofs.Diagnostic.Collector
import RoutePolicy.Proofs.Diagnostic.Report

/-!
# A collector that several clients share

Clients record into one collector, each of them its own calls in its own order, and every call is a
single step.  Which client goes next is open.  Whatever the order is, the collector loses no call
and lists no diagnostic twice; what depends on the order is which moment is kept of a diagnostic
that was recorded several times, and the order of the list.

* `SharedCollector.Step`, `SharedCollector.Run` — one call of some client, and any number of them;
* `SharedCollector.Run.collector_eq`, `SharedCollector.Run.perm_calls` — what a run does to the
  collector and to the calls that are left;
* `SharedCollector.exists_run` — every run can be brought to its end;
* `SharedCollector.run_loses_nothing` — what a collector and its report hold after any run.
-/

set_option autoImplicit false

namespace RoutePolicy

variable {τ : Type}

/-- A collector and its clients, each with the calls that it has yet to make. -/
structure SharedCollector (τ : Type) where
  collector : Collector τ
  clients : List (List (Stamped τ))

namespace SharedCollector

/-- A new collector with clients that have not yet made a call. -/
def start (clients : List (List (Stamped τ))) : SharedCollector τ := ⟨.empty, clients⟩

/-- Whether every client has made its calls. -/
def Finished (s : SharedCollector τ) : Prop := ∀ calls ∈ s.clients, calls = []

/-- One of the clients makes its next call. -/
inductive Step : SharedCollector τ → Stamped τ → SharedCollector τ → Prop where
  | call (c : Collector τ) (before : List (List (Stamped τ))) (d : Stamped τ)
    (rest : List (Stamped τ)) (after : List (List (Stamped τ))) :
    Step ⟨c, before ++ (d :: rest) :: after⟩ d ⟨c.record d, before ++ rest :: after⟩

/-- Steps one after the other, with the calls in the order in which they are made. -/
inductive Run : SharedCollector τ → List (Stamped τ) → SharedCollector τ → Prop where
  | stop (s : SharedCollector τ) : Run s [] s
  | step {s next s' : SharedCollector τ} {d : Stamped τ} {calls : List (Stamped τ)}
    (first : Step s d next) (others : Run next calls s') : Run s (d :: calls) s'

variable {s next s' : SharedCollector τ} {d : Stamped τ} {calls : List (Stamped τ)}
  {clients : List (List (Stamped τ))}

/-! ## One call -/

theorem Step.collector_eq (h : Step s d next) : next.collector = s.collector.record d := by
  cases h
  rfl

/-- A call is taken from those that are left. -/
theorem Step.perm_calls (h : Step s d next) :
    s.clients.flatten.Perm (d :: next.clients.flatten) := by
  cases h with
  | call c before d rest after =>
    simp only [List.flatten_append, List.flatten_cons, List.cons_append]
    exact List.perm_middle

/-- While a client has a call left, some client can go on. -/
theorem exists_step (h : ¬ s.Finished) : ∃ d next, Step s d next := by
  obtain ⟨c, clients⟩ := s
  simp only [Finished, not_forall] at h
  obtain ⟨mine, hmine, hleft⟩ := h
  obtain ⟨d, rest, rfl⟩ := List.exists_cons_of_ne_nil hleft
  obtain ⟨before, after, rfl⟩ := List.append_of_mem hmine
  exact ⟨d, _, .call c before d rest after⟩

theorem flatten_eq_nil_of_finished (h : s.Finished) : s.clients.flatten = [] :=
  List.flatten_eq_nil_iff.mpr h

/-! ## Any number of calls -/

theorem Run.collector_eq (h : Run s calls s') :
    s'.collector = s.collector.recordAll calls := by
  induction h with
  | stop s => rfl
  | step first others ih =>
    rw [ih, first.collector_eq]
    rfl

/-- Every call that was to be made was made once, or is left. -/
theorem Run.perm_calls (h : Run s calls s') :
    s.clients.flatten.Perm (calls ++ s'.clients.flatten) := by
  induction h with
  | stop s => exact .refl _
  | step first others ih => exact first.perm_calls.trans (ih.cons _)

theorem Run.perm_of_finished (h : Run s calls s') (hfinished : s'.Finished) :
    s.clients.flatten.Perm calls := by
  have hperm := h.perm_calls
  rwa [flatten_eq_nil_of_finished hfinished, List.append_nil] at hperm

theorem Run.collects (h : Run (start clients) calls s) : s.collector.Collects calls := by
  rw [h.collector_eq]
  exact Collector.collects_recordAll calls

/-- Clients can always make all their calls: each step leaves one call less. -/
theorem exists_run (s : SharedCollector τ) : ∃ calls s', Run s calls s' ∧ s'.Finished := by
  by_cases h : s.Finished
  · exact ⟨[], s, .stop s, h⟩
  · obtain ⟨d, next, hstep⟩ := exists_step h
    have hless : next.clients.flatten.length < s.clients.flatten.length := by
      rw [hstep.perm_calls.length_eq]
      exact Nat.lt_succ_self _
    obtain ⟨calls, s', hrun, hfinished⟩ := exists_run next
    exact ⟨d :: calls, s', .step hstep hrun, hfinished⟩
termination_by s.clients.flatten.length
decreasing_by exact hless

/-- **Nothing is lost and nothing doubled.**  After any calls a collector lists those whose policy,
term and finding did not occur before, in their order, no two of them with the same key, and it has
counted the calls.  Calls of several clients, in any order that keeps the order of each client, are
such calls; when all are made, in whatever order and by whichever clients, the keys and the count
are the same.  In a report the counts of the four kinds add up to the number of diagnostics, and the
selections of the policies share the diagnostics out: each stands in the selection of its own policy
and in no other one. -/
theorem run_loses_nothing :
    (∀ calls : List (Stamped τ),
      let c := Collector.empty.recordAll calls
      c.entries = firsts calls ∧ c.entries.Sublist calls ∧ c.keys.Nodup ∧
        (∀ k, k ∈ c.seen ↔ k ∈ c.keys) ∧ c.recorded = calls.length) ∧
    (∀ (clients : List (List (Stamped τ))) calls s, Run (start clients) calls s →
      s.collector = Collector.empty.recordAll calls ∧
        clients.flatten.Perm (calls ++ s.clients.flatten)) ∧
    (∀ clients : List (List (Stamped τ)), ∃ calls s, Run (start clients) calls s ∧ s.Finished) ∧
    (∀ (clients clients' : List (List (Stamped τ))) calls calls' s s',
      clients.flatten.Perm clients'.flatten →
      Run (start clients) calls s → s.Finished → Run (start clients') calls' s' → s'.Finished →
        (∀ k, k ∈ s.collector.keys ↔ k ∈ s'.collector.keys) ∧
          s.collector.recorded = clients.flatten.length ∧
          s'.collector.recorded = clients.flatten.length) ∧
    ∀ (c : Collector τ) fingerprint,
      let r := (c.report fingerprint).2
      r.diagnostics = c.entries.map (·.diagnostic) ∧
        r.counts.undefinedReferences + r.counts.unsupportedConstructs + r.counts.callCycles +
          r.counts.depthExceeded = r.diagnostics.length ∧
        (∀ policy, (r.forPolicy policy).Sublist r.diagnostics) ∧
        (∀ d ∈ r.diagnostics, ∀ policy, d ∈ r.forPolicy policy ↔ d.policy = policy) ∧
        (r.policies.flatMap r.forPolicy).Perm r.diagnostics := by
  refine ⟨?_, ?_, fun clients => exists_run _, ?_, ?_⟩
  · intro calls c
    have hcollects : c.Collects calls := Collector.collects_recordAll calls
    have hsublist : c.entries.Sublist calls := by
      rw [hcollects.entries_eq]
      exact sublist_firsts calls
    exact ⟨hcollects.entries_eq, hsublist, hcollects.nodup_keys, hcollects.mem_seen_iff,
      hcollects.recorded_eq⟩
  · intro clients calls s h
    exact ⟨h.collector_eq, h.perm_calls⟩
  · intro clients clients' calls calls' s s' hsame h hfinished h' hfinished'
    have hall : clients.flatten.Perm calls := h.perm_of_finished hfinished
    have hall' : clients.flatten.Perm calls' := hsame.trans (h'.perm_of_finished hfinished')
    have hkeys : ∀ k, k ∈ s.collector.keys ↔ k ∈ s'.collector.keys :=
      h.collects.mem_keys_of_perm h'.collects (hall.symm.trans hall')
    refine ⟨hkeys, ?_, ?_⟩
    · rw [h.collects.recorded_eq, hall.length_eq]
    · rw [h'.collects.recorded_eq, hall'.length_eq]
  · intro c fingerprint r
    have hshared : ∀ d ∈ r.diagnostics, ∀ policy, d ∈ r.forPolicy policy ↔ d.policy = policy := by
      intro d hd policy
      rw [Report.mem_forPolicy, and_iff_right hd]
    exact ⟨rfl, r.total_counts, r.sublist_forPolicy, hshared, r.perm_selections⟩

/-- Two clients find the same problem.  Who comes first decides which moment is kept. -/
theorem run_loses_nothing_two_clients :
    let p : Diagnostic := ⟨"p", none, .unsupportedConstruct "x"⟩
    let q : Diagnostic := ⟨"p", some 1, .unsupportedConstruct "x"⟩
    let clients : List (List (Stamped Nat)) := [[⟨p, 1⟩, ⟨q, 2⟩], [⟨p, 3⟩]]
    ∃ s s', Run (start clients) [⟨p, 1⟩, ⟨q, 2⟩, ⟨p, 3⟩] s ∧ s.Finished ∧
      Run (start clients) [⟨p, 3⟩, ⟨p, 1⟩, ⟨q, 2⟩] s' ∧ s'.Finished ∧
      s.collector.entries = [⟨p, 1⟩, ⟨q, 2⟩] ∧ s'.collector.entries = [⟨p, 3⟩, ⟨q, 2⟩] ∧
      (∀ k, k ∈ s.collector.keys ↔ k ∈ s'.collector.keys) ∧
      s.collector.recorded = 3 ∧ s'.collector.recorded = 3 := by
  intro p q clients
  have hfirst : Run (start clients) [⟨p, 1⟩, ⟨q, 2⟩, ⟨p, 3⟩] _ :=
    .step (.call _ [] ⟨p, 1⟩ [⟨q, 2⟩] [[⟨p, 3⟩]]) <|
      .step (.call _ [] ⟨q, 2⟩ [] [[⟨p, 3⟩]]) <|
      .step (.call _ [[]] ⟨p, 3⟩ [] []) (.stop _)
  have hsecond : Run (start clients) [⟨p, 3⟩, ⟨p, 1⟩, ⟨q, 2⟩] _ :=
    .step (.call _ [[⟨p, 1⟩, ⟨q, 2⟩]] ⟨p, 3⟩ [] []) <|
      .step (.call _ [] ⟨p, 1⟩ [⟨q, 2⟩] [[]]) <|
      .step (.call _ [] ⟨q, 2⟩ [] [[]]) (.stop _)
  have hfinished : ∀ c : Collector Nat, Finished ⟨c, [[], []]⟩ := by simp [Finished]
  obtain ⟨hcalls, hruns, -, hboth, -⟩ := @run_loses_nothing Nat
  have hentries : ∀ {calls s}, Run (start clients) calls s → s.collector.entries = firsts calls :=
    fun hrun => (hruns _ _ _ hrun).1 ▸ (hcalls _).1
  exact ⟨_, _, hfirst, hfinished _, hsecond, hfinished _, hentries hfirst, hentries hsecond,
    hboth clients clients _ _ _ _ (.refl _) hfirst (hfinished _) hsecond (hfinished _)⟩

end SharedCollector

end RoutePolicy
