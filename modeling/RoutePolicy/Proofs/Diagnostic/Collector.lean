import Mathlib.Data.List.Induction
import Mathlib.Data.List.Nodup
import RoutePolicy.Diagnostic.Collector

/-!
# What a collector holds

A collector keeps two things in step: the diagnostics that it lists, and the keys that it has seen.
After any calls it lists the diagnostics whose key occurred for the first time, in their order, and
it has seen the keys that occurred.

* `firsts` — the diagnostics whose key no earlier one has;
* `Collector.Collects`, `Collector.Collects.record` — what a collector holds after some calls, and
  what one more call makes of it;
* `Collector.collects_recordAll`, `Collector.Collects.absorb` — what it holds after any calls, and
  after any notices.
-/

set_option autoImplicit false

namespace RoutePolicy

variable {τ : Type}

/-! ## First occurrences -/

/-- Whether no diagnostic before a place has a key. -/
def isNewAt (calls : List (Stamped τ)) (place : Nat) (k : DiagnosticKey) : Bool :=
  !(calls.take place).any fun d => decide (d.key = k)

/-- The diagnostics whose key none of those before them has. -/
def firsts (calls : List (Stamped τ)) : List (Stamped τ) :=
  (calls.zipIdx.filter fun d => isNewAt calls d.2 d.1.key).map Prod.fst

theorem isNewAt_iff {calls : List (Stamped τ)} {place : Nat} {k : DiagnosticKey} :
    isNewAt calls place k = true ↔ k ∉ (calls.take place).map Stamped.key := by
  simp [isNewAt, -List.map_take]

theorem sublist_firsts (calls : List (Stamped τ)) : (firsts calls).Sublist calls := by
  have hplaced : calls.zipIdx.map Prod.fst = calls := List.zipIdx_map_fst 0 calls
  have hfiltered : (firsts calls).Sublist (calls.zipIdx.map Prod.fst) :=
    List.filter_sublist.map Prod.fst
  rwa [hplaced] at hfiltered

/-- What stands before a place does not depend on what comes after it. -/
theorem isNewAt_append {calls : List (Stamped τ)} {place : Nat} (h : place ≤ calls.length)
    (more : List (Stamped τ)) (k : DiagnosticKey) :
    isNewAt (calls ++ more) place k = isNewAt calls place k := by
  unfold isNewAt
  rw [List.take_append_of_le_length h]

/-- Another diagnostic is a first occurrence if its key is new, and changes nothing about those
before it. -/
theorem firsts_append_singleton (calls : List (Stamped τ)) (d : Stamped τ) :
    firsts (calls ++ [d]) =
      firsts calls ++ if d.key ∈ calls.map Stamped.key then [] else [d] := by
  have hplaced : (calls ++ [d]).zipIdx = calls.zipIdx ++ [(d, calls.length)] := by
    simp [List.zipIdx_append]
  have hearlier : (calls.zipIdx.filter fun e => isNewAt (calls ++ [d]) e.2 e.1.key) =
      calls.zipIdx.filter fun e => isNewAt calls e.2 e.1.key := by
    apply List.filter_congr
    intro e he
    have hplace := List.snd_lt_of_mem_zipIdx he
    exact isNewAt_append (by omega) _ _
  have hlast : isNewAt (calls ++ [d]) calls.length d.key = true ↔
      d.key ∉ calls.map Stamped.key := by
    rw [isNewAt_iff, List.take_left]
  unfold firsts
  rw [hplaced, List.filter_append, List.map_append, hearlier]
  by_cases hd : d.key ∈ calls.map Stamped.key
  · have hold : isNewAt (calls ++ [d]) calls.length d.key = false := by
      simpa [hd] using hlast
    simp [hd, hold]
  · simp [hd, hlast.mpr hd]

theorem mem_keys_firsts (calls : List (Stamped τ)) (k : DiagnosticKey) :
    k ∈ (firsts calls).map Stamped.key ↔ k ∈ calls.map Stamped.key := by
  induction calls using List.reverseRecOn with
  | nil => rfl
  | append_singleton calls d ih =>
    rw [firsts_append_singleton, List.map_append, List.map_append, List.mem_append, ih,
      List.mem_append]
    split
    · rename_i hd
      -- the key of the last one is among the earlier keys
      have hlast : k ∈ [d].map Stamped.key → k ∈ calls.map Stamped.key := by
        intro hk
        rwa [List.mem_singleton.mp hk]
      simpa using hlast
    · rfl

theorem nodup_keys_firsts (calls : List (Stamped τ)) :
    ((firsts calls).map Stamped.key).Nodup := by
  induction calls using List.reverseRecOn with
  | nil => exact .nil
  | append_singleton calls d ih =>
    rw [firsts_append_singleton]
    split
    · rwa [List.append_nil]
    · rename_i hd
      have hnew : d.key ∉ (firsts calls).map Stamped.key := by
        rwa [mem_keys_firsts]
      rw [List.map_append, List.map_singleton, ← List.concat_eq_append]
      exact ih.concat hnew

namespace Collector

/-! ## Calls one after the other -/

/-- What a collector holds after some calls. -/
structure Collects (c : Collector τ) (calls : List (Stamped τ)) : Prop where
  entries_eq : c.entries = firsts calls
  mem_seen : ∀ k, k ∈ c.seen ↔ k ∈ calls.map Stamped.key
  recorded_eq : c.recorded = calls.length

theorem collects_empty : (empty : Collector τ).Collects [] where
  entries_eq := rfl
  mem_seen _ := Iff.rfl
  recorded_eq := rfl

variable {c c' : Collector τ} {calls calls' : List (Stamped τ)}

/-- The list and the seen keys stay in step: a diagnostic is listed exactly when its key is put to
those that were seen. -/
theorem Collects.record (h : c.Collects calls) (d : Stamped τ) :
    (c.record d).Collects (calls ++ [d]) := by
  have hcontains : c.contains d.diagnostic = decide (d.key ∈ calls.map Stamped.key) := by
    apply decide_eq_decide.mpr
    exact h.mem_seen d.key
  have hrecorded : c.recorded + 1 = (calls ++ [d]).length := by
    simp [h.recorded_eq]
  have hfirsts := firsts_append_singleton calls d
  unfold Collector.record
  rw [hcontains]
  by_cases hd : d.key ∈ calls.map Stamped.key
  · simp only [hd, decide_true, if_true, List.append_nil] at hfirsts ⊢
    refine ⟨h.entries_eq.trans hfirsts.symm, ?_, hrecorded⟩
    intro k
    have hlast : k = d.key → k ∈ calls.map Stamped.key := by
      rintro rfl
      exact hd
    show k ∈ c.seen ↔ _
    rw [h.mem_seen, List.map_append, List.mem_append, List.map_singleton, List.mem_singleton]
    exact ⟨.inl, fun hk => hk.elim id hlast⟩
  · simp only [hd, decide_false, if_false, Bool.false_eq_true] at hfirsts ⊢
    refine ⟨?_, ?_, hrecorded⟩
    · show c.entries ++ [d] = _
      rw [h.entries_eq, hfirsts]
    · intro k
      show k ∈ d.key :: c.seen ↔ _
      rw [List.mem_cons, h.mem_seen, List.map_append, List.mem_append, List.map_singleton,
        List.mem_singleton]
      exact or_comm

theorem Collects.recordAll (h : c.Collects calls) (more : List (Stamped τ)) :
    (c.recordAll more).Collects (calls ++ more) := by
  induction more generalizing c calls with
  | nil => rwa [List.append_nil]
  | cons d more ih =>
    rw [List.append_cons]
    exact ih (h.record d)

/-- After any calls a new collector holds what was recorded. -/
theorem collects_recordAll (calls : List (Stamped τ)) : (empty.recordAll calls).Collects calls :=
  collects_empty.recordAll calls

/-- Taking in notices records the diagnostics among them. -/
theorem Collects.absorb {c : Collector Unit} {calls : List (Stamped Unit)} (h : c.Collects calls)
    (notices : List Notice) :
    (c.absorb notices).1.Collects (calls ++ (diagnosticsOf notices).map fun d => ⟨d, ()⟩) := by
  rw [absorb_fst]
  exact h.recordAll _

/-! ## What follows from what was recorded -/

/-- The keys of the diagnostics that a collector lists. -/
def keys (c : Collector τ) : List DiagnosticKey := c.entries.map Stamped.key

theorem Collects.nodup_keys (h : c.Collects calls) : c.keys.Nodup := by
  unfold keys
  rw [h.entries_eq]
  exact nodup_keys_firsts calls

theorem Collects.mem_keys (h : c.Collects calls) (k : DiagnosticKey) :
    k ∈ c.keys ↔ k ∈ calls.map Stamped.key := by
  unfold keys
  rw [h.entries_eq]
  exact mem_keys_firsts calls k

/-- The keys that were seen are those of the list. -/
theorem Collects.mem_seen_iff (h : c.Collects calls) (k : DiagnosticKey) :
    k ∈ c.seen ↔ k ∈ c.keys :=
  (h.mem_seen k).trans (h.mem_keys k).symm

/-- The order of the calls does not matter for the keys. -/
theorem Collects.mem_keys_of_perm (h : c.Collects calls) (h' : c'.Collects calls')
    (hperm : calls.Perm calls') (k : DiagnosticKey) : k ∈ c.keys ↔ k ∈ c'.keys := by
  rw [h.mem_keys, h'.mem_keys]
  exact (hperm.map Stamped.key).mem_iff

end Collector

end RoutePolicy
