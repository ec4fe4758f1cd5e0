import RoutePolicy.Fingerprint
import RoutePolicy.Proofs.Codec.Exact
import RoutePolicy.Proofs.Evaluation.Adequacy
import RoutePolicy.Proofs.Table.Links
import Mathlib.Data.List.Induction

/-!
# The bytes behind a fingerprint determine the table

The records of a commitment follow each other without any length, and names may hold every
character, the zero byte included.  What makes the records readable is that compact JSON never
holds a zero byte: the last zero byte of a commitment stands before the data of the last policy,
that data holds the name, and the name tells where the record begins.

* `utf8_injective`, `zero_notMem_utf8` — texts as bytes;
* `Policy.commitment_append_inj` — the last record of a stream;
* `Table.commitment_eq_iff` — tables of any kind;
* `Registry.commitment_freeze` — frozen tables, and what follows for their evaluations;
* `Registry.commitment_freeze_stray` — what does not follow.
-/

set_option autoImplicit false

namespace RoutePolicy

/-! ## Texts as bytes -/

theorem utf8_injective : Function.Injective utf8 := by
  intro s t h
  have hbytes : s.toList.utf8Encode = t.toList.utf8Encode := congrArg List.toByteArray h
  rw [String.utf8Encode_toList, String.utf8Encode_toList] at hbytes
  exact String.toByteArray_inj.mp hbytes

/-- Only the character zero has a zero byte: the bytes of all longer forms have their highest bit
set. -/
theorem toNat_eq_zero_of_mem_utf8EncodeChar {c : Char} (h : 0 ∈ String.utf8EncodeChar c) :
    c.toNat = 0 := by
  have hbyte : ∀ n : Nat, (0 : UInt8) = UInt8.ofNat n → n % 256 = 0 := by
    intro n hn
    have htoNat := congrArg UInt8.toNat hn
    simpa using htoNat.symm
  have hzero : c.val.toNat = 0 := by
    unfold String.utf8EncodeChar at h
    simp only at h
    split at h
    · rw [List.mem_singleton] at h
      have hmod := hbyte _ h
      omega
    split at h
    · simp only [List.mem_cons, List.not_mem_nil, or_false] at h
      rcases h with h | h <;> have hmod := hbyte _ h <;> omega
    split at h
    · simp only [List.mem_cons, List.not_mem_nil, or_false] at h
      rcases h with h | h | h <;> have hmod := hbyte _ h <;> omega
    · simp only [List.mem_cons, List.not_mem_nil, or_false] at h
      rcases h with h | h | h | h <;> have hmod := hbyte _ h <;> omega
  exact hzero

theorem zero_notMem_utf8 {s : String} (h : ∀ c ∈ s.toList, c.toNat ≠ 0) : 0 ∉ utf8 s := by
  intro hmem
  obtain ⟨c, hc, hzero⟩ := List.mem_flatMap.mp hmem
  exact h c hc (toNat_eq_zero_of_mem_utf8EncodeChar hzero)

/-- The last zero of a list is where it is. -/
theorem append_zero_inj {a b u v : List UInt8} (hu : 0 ∉ u) (hv : 0 ∉ v)
    (h : a ++ 0 :: u = b ++ 0 :: v) : a = b ∧ u = v := by
  rcases List.append_eq_append_iff.mp h with ⟨m, hb, hm⟩ | ⟨m, ha, hm⟩
  · cases m with
    | nil => exact ⟨by simpa using hb.symm, (List.cons.inj hm).2⟩
    | cons x m =>
      have hmem : (0 : UInt8) ∈ u := by
        rw [(List.cons.inj hm).2]
        exact List.mem_append_right _ List.mem_cons_self
      exact absurd hmem hu
  · cases m with
    | nil => exact ⟨by simpa using ha, (List.cons.inj hm).2.symm⟩
    | cons x m =>
      have hmem : (0 : UInt8) ∈ v := by
        rw [(List.cons.inj hm).2]
        exact List.mem_append_right _ List.mem_cons_self
      exact absurd hmem hv

/-! ## Records -/

namespace Condition

mutual

theorem toJson_forget : (c : Condition) → (c.mapReferences .forget).toJson = c.toJson
  | .not c => by simp only [mapReferences, toJson, toJson_forget c]
  | .all cs => by simp only [mapReferences, toJson, toJsonEach_forget cs]
  | .any cs => by simp only [mapReferences, toJson, toJsonEach_forget cs]
  | .firstMatch _ => by
    simp only [mapReferences, toJson, referencesToJson, List.map_map]
    rfl
  | .allMatch _ => by
    simp only [mapReferences, toJson, referencesToJson, List.map_map]
    rfl
  | .callPolicy _ | .literal _ | .test _ | .inCall => rfl

theorem toJsonEach_forget : (cs : List Condition) →
    toJsonEach (mapReferencesAll .forget cs) = toJsonEach cs
  | [] => rfl
  | c :: cs => by simp only [mapReferencesAll, toJsonEach, toJson_forget c, toJsonEach_forget cs]

end

end Condition

namespace Statement

mutual

theorem toJson_forget : (s : Statement) → (s.mapReferences .forget).toJson = s.toJson
  | .branch guard a b => by
    simp only [mapReferences, toJson, guard.toJson_forget, toJsonEach_forget a,
      toJsonEach_forget b]
  | .setDefaultPolicy _ | .call _ | .write _ _ | .comment _ | .control _ => rfl

theorem toJsonEach_forget : (ss : List Statement) →
    toJsonEach (mapReferencesAll .forget ss) = toJsonEach ss
  | [] => rfl
  | s :: ss => by simp only [mapReferencesAll, toJsonEach, toJson_forget s, toJsonEach_forget ss]

end

end Statement

namespace Policy

/-- Links and terms are no part of the data of a policy. -/
theorem toJson_forget (p : Policy) : p.forget.toJson = p.toJson := by
  simp only [forget, mapReferences, toJson, Statement.toJsonEach_forget]

theorem commitment_forget (p : Policy) : p.forget.commitment = p.commitment := by
  rw [commitment, p.toJson_forget]
  rfl

theorem zero_notMem_data (p : Policy) : 0 ∉ utf8 p.toJson.compact := by
  refine zero_notMem_utf8 fun c hc => ?_
  rw [Json.compact, String.toList_ofList] at hc
  have hle := Json.le_of_mem_compactChars p.toJson p.exact_toJson c hc
  omega

/-- **The last record of a stream can be read.**  The last zero byte stands before the data, and
the data tells how long the name is. -/
theorem commitment_append_inj {p q : Policy} {a b : List UInt8}
    (h : a ++ p.commitment = b ++ q.commitment) : a = b ∧ p.forget = q.forget := by
  rw [commitment, commitment, ← List.append_assoc, ← List.append_assoc] at h
  obtain ⟨hfront, hdata⟩ := append_zero_inj p.zero_notMem_data q.zero_notMem_data h
  have hjson := Json.compact_injective p.exact_toJson q.exact_toJson (utf8_injective hdata)
  have hforget := forget_eq_of_toJson_eq hjson
  have hname : p.forget.name = q.forget.name := congrArg Policy.name hforget
  have hnames : utf8 p.name = utf8 q.name := congrArg utf8 hname
  rw [hnames] at hfront
  exact ⟨List.append_cancel_right hfront, hforget⟩

theorem commitment_ne_nil (p : Policy) : p.commitment ≠ [] := by
  rw [commitment]
  exact List.append_ne_nil_of_right_ne_nil _ (List.cons_ne_nil _ _)

/-- Streams of records are read from the back, record by record. -/
theorem map_forget_eq_of_commitment (ps qs : List Policy)
    (h : ps.flatMap commitment = qs.flatMap commitment) : ps.map forget = qs.map forget := by
  induction ps using List.reverseRecOn generalizing qs with
  | nil =>
    cases qs with
    | nil => rfl
    | cons q qs =>
      rw [List.flatMap_nil, List.flatMap_cons] at h
      exact absurd (List.append_eq_nil_iff.mp h.symm).1 q.commitment_ne_nil
  | append_singleton ps p ih =>
    rcases List.eq_nil_or_concat' qs with rfl | ⟨qs, q, rfl⟩
    · rw [List.flatMap_append, List.flatMap_singleton, List.flatMap_nil] at h
      exact absurd (List.append_eq_nil_iff.mp h).2 p.commitment_ne_nil
    · rw [List.flatMap_append, List.flatMap_append, List.flatMap_singleton,
        List.flatMap_singleton] at h
      obtain ⟨hrest, hlast⟩ := commitment_append_inj h
      rw [List.map_append, List.map_append, ih qs hrest, List.map_singleton, List.map_singleton,
        hlast]

end Policy

/-! ## Tables -/

/-- Two tables are hashed from the same bytes exactly when they list the same policies up to links
and terms. -/
theorem Table.commitment_eq_iff (t u : Table) :
    t.commitment = u.commitment ↔ t.policies.map Policy.forget = u.policies.map Policy.forget := by
  constructor
  · exact Policy.map_forget_eq_of_commitment t.policies u.policies
  · intro h
    have hforget : ∀ t : Table, t.commitment = (t.policies.map Policy.forget).flatMap
        Policy.commitment := by
      intro t
      rw [List.flatMap_map, commitment]
      exact List.flatMap_congr fun p _ => p.commitment_forget.symm
    rw [hforget t, hforget u, h]

namespace Registry

/-- **A fingerprint commits to the whole table**, but for stray links.  Frozen tables are hashed from
the same bytes exactly when they list the same policies in the same order: names, statements up to
links and terms, sources and authorship.  Every evaluation on such tables then decides or fails alike
and reports the same notices, as long as the links follow from the names: a reference that names no
policy must have no link. -/
theorem commitment_freeze (r r' : Registry) :
    (r.freeze.2.commitment = r'.freeze.2.commitment ↔
      r.freeze.2.policies.map Policy.forget = r'.freeze.2.policies.map Policy.forget) ∧
    (r.NoStrayLinks → r'.NoStrayLinks → r.freeze.2.commitment = r'.freeze.2.commitment →
      ∀ (s : Settings) (policy : String) (route : Route) (d : Direction),
        r.freeze.2.evaluate s policy route d = r'.freeze.2.evaluate s policy route d) := by
  refine ⟨Table.commitment_eq_iff _ _, fun hr hr' h s policy route d => ?_⟩
  have hforget := (Table.commitment_eq_iff r.table r'.table).mp h
  exact Table.evaluate_congr (equivalent_of_forget_eq hr hr' hforget) s policy route d

/-- Two policies whose names hold a zero byte and look like the data of a policy.  The references of
one registry come from a term and those of the other do not. -/
theorem commitment_freeze_terms :
    let registry (term : Option Nat) : Registry :=
      (Registry.empty.insert
        { name := "\x00\x7b"
          statements := [.branch (.callPolicy { name := "\x00\x7b\x00", term })
            [.control .exitAccept] [.call { name := "missing", term }]] }).insert
        { name := "\x00\x7b\x00", statements := [.control .returnTrue] }
    let r := registry none
    let r' := registry (some 1)
    r ≠ r' ∧ r.NoStrayLinks ∧ r'.NoStrayLinks ∧
    r.freeze.2.commitment = r'.freeze.2.commitment ∧
    r.freeze.2.evaluate {} "\x00\x7b" {} .inbound =
      r'.freeze.2.evaluate {} "\x00\x7b" {} .inbound := by
  intro registry r r'
  have hr : r.NoStrayLinks := by decide
  have hr' : r'.NoStrayLinks := by decide
  have hforget : r.freeze.2.policies.map Policy.forget =
      r'.freeze.2.policies.map Policy.forget := by
    decide +kernel
  have hcommitment := (commitment_freeze r r').1.mpr hforget
  exact ⟨by decide, hr, hr', hcommitment,
    (commitment_freeze r r').2 hr hr' hcommitment {} "\x00\x7b" {} .inbound⟩

/-- **A stray link leaves no trace in the bytes.**  A derived policy that asks the undefined policy
"a" stands behind "b" in two tables.  In one of them it was taken out of a table in which "a" was the
first policy, so that it asks "b" instead. -/
theorem commitment_freeze_stray :
    let asking (ref : Reference) : Policy :=
      { name := "~P~"
        statements := [.branch (.callPolicy ref) [.control .exitAccept] [.control .exitReject]]
        origin := .derived }
    let first (name : String) : Policy := { name, statements := [.control .returnTrue] }
    let old : Registry := { policies := [first "a", asking (.named "a")], ascending := by decide }
    let taken : Policy := asking ((Reference.named "a").linked ⟨0⟩)
    let r : Registry := { policies := [first "b", asking (.named "a")], ascending := by decide }
    let r' : Registry := { policies := [first "b", taken], ascending := by decide }
    old.freeze.2.resolve? "~P~" = some taken ∧
      r.freeze.2.commitment = r'.freeze.2.commitment ∧
      (r.freeze.2.evaluate {} "~P~" {} .inbound).2 = .ok ⟨.reject, .empty⟩ ∧
      (r'.freeze.2.evaluate {} "~P~" {} .inbound).2 = .ok ⟨.accept, .empty⟩ := by
  intro asking first old taken r r'
  have hforget : r.freeze.2.policies.map Policy.forget =
      r'.freeze.2.policies.map Policy.forget := by
    decide +kernel
  have hreject : (r.freeze.2.evaluate {} "~P~" {} .inbound).2 = .ok ⟨.reject, .empty⟩ ∧
      diagnosticsOf (r.freeze.2.evaluate {} "~P~" {} .inbound).1 = [] :=
    Machine.evaluate_of_halts 7 (by decide)
  have haccept : (r'.freeze.2.evaluate {} "~P~" {} .inbound).2 = .ok ⟨.accept, .empty⟩ ∧
      diagnosticsOf (r'.freeze.2.evaluate {} "~P~" {} .inbound).1 = [] :=
    Machine.evaluate_of_halts 10 (by decide)
  exact ⟨by decide, (Table.commitment_eq_iff _ _).mpr hforget, hreject.1, haccept.1⟩

end Registry

end RoutePolicy
