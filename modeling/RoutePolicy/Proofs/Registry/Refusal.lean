import Mathlib.Data.List.Induction
import Mathlib.Data.List.Nodup
import Mathlib.Data.List.Pairwise
import RoutePolicy.Proofs.Registry.Define

/-!
# Which definitions are refused

A policy is refused when a user gave it a reserved name, or when its name is taken: by any policy
before a user's policy, and by a different policy before a derived one.  Definitions are stored
when none of them is refused after the ones before it, and this does not depend on their order.

* `Policy.Refused` — why a policy is refused after others;
* `Policy.Compatible`, `Policies.Settled` — policies that can be stored together;
* `Registry.define_error_iff` — storing one policy;
* `Registry.exists_defineAll_iff`, `Registry.defineAll_error_iff` — storing a list of them: when it
  succeeds, and which failure it gives;
* `Policies.settled_iff` — policies that can be stored together, by who wrote them.
-/

set_option autoImplicit false

namespace RoutePolicy

namespace Policy

/-- Why a policy is refused when others are stored. -/
inductive Refused (earlier : List Policy) (p : Policy) : DefineError → Prop where
  | reserved (user : p.isDerived = false) (name_reserved : isReservedName p.name = true) :
    Refused earlier p (.reservedName p.name)
  | duplicate (q : Policy) (mem : q ∈ earlier) (name_eq : q.name = p.name)
    (allowed : p.isDerived = true ∨ isReservedName p.name = false)
    (differs : p.isDerived = true → q ≠ p) : Refused earlier p (.duplicate p.name)

theorem Refused.congr {earlier earlier' : List Policy} {p : Policy} {e : DefineError}
    (h : p.Refused earlier e) (hsame : ∀ q, q ∈ earlier ↔ q ∈ earlier') : p.Refused earlier' e := by
  cases h with
  | reserved huser hname => exact .reserved huser hname
  | duplicate q hmem hname hallowed hdiffers =>
    exact .duplicate q ((hsame q).mp hmem) hname hallowed hdiffers

/-- Whether two policies can both be stored: under different names, or as one derived policy. -/
def Compatible (p q : Policy) : Prop := p.name = q.name → p.isDerived = true ∧ p = q

instance : Std.Symm Compatible where
  symm p q h hname := by
    obtain ⟨hderived, rfl⟩ := h hname.symm
    exact ⟨hderived, rfl⟩

end Policy

/-- Policies that can all be stored. -/
structure Policies.Settled (ps : List Policy) : Prop where
  allowed : ∀ p ∈ ps, p.isDerived = true ∨ isReservedName p.name = false
  compatible : ps.Pairwise Policy.Compatible

namespace Policies

/-- One more policy can be stored when it is not refused. -/
theorem settled_concat_iff {ps : List Policy} {p : Policy} :
    Settled (ps ++ [p]) ↔ Settled ps ∧ ∀ e, ¬ p.Refused ps e := by
  constructor
  · rintro ⟨hallowed, hcompatible⟩
    obtain ⟨hps, -, hp⟩ := List.pairwise_append.mp hcompatible
    refine ⟨⟨fun q hq => hallowed q (List.mem_append_left _ hq), hps⟩, ?_⟩
    intro e he
    cases he with
    | reserved huser hname =>
      have hor := hallowed p (List.mem_append_right _ List.mem_cons_self)
      simp [huser, hname] at hor
    | duplicate q hmem hname _ hdiffers =>
      obtain ⟨hderived, rfl⟩ := hp q hmem p List.mem_cons_self hname
      exact hdiffers hderived rfl
  · rintro ⟨⟨hallowed, hcompatible⟩, hp⟩
    have hpAllowed : p.isDerived = true ∨ isReservedName p.name = false := by
      by_contra hnot
      rw [not_or, Bool.not_eq_true, Bool.not_eq_false] at hnot
      exact hp _ (.reserved hnot.1 hnot.2)
    refine ⟨fun q hq => ?_, ?_⟩
    · rcases List.mem_append.mp hq with hq | hq
      · exact hallowed q hq
      · rw [List.mem_singleton.mp hq]
        exact hpAllowed
    · refine List.pairwise_append.mpr ⟨hcompatible, List.pairwise_singleton _ _, ?_⟩
      intro q hq p' hp' hname
      obtain rfl := List.mem_singleton.mp hp'
      by_contra hnot
      refine hp _ (.duplicate q hq hname hpAllowed fun hderived heq => hnot ?_)
      exact ⟨heq ▸ hderived, heq⟩

/-- Policies can be stored in any order. -/
theorem Settled.perm {ps qs : List Policy} (h : Settled ps) (hperm : ps.Perm qs) : Settled qs where
  allowed q hq := h.allowed q (hperm.mem_iff.mpr hq)
  compatible := (hperm.pairwise_iff fun h => symm h).mp h.compatible

/-- Policies can be stored together when users have given no reserved name and no name twice, and a
name of a derived policy belongs to one policy only. -/
theorem settled_iff {ps : List Policy} :
    Settled ps ↔
      (∀ p ∈ ps, p.isDerived = true ∨ isReservedName p.name = false) ∧
      ((ps.filter (!·.isDerived)).map (·.name)).Nodup ∧
      ∀ p ∈ ps, ∀ q ∈ ps, p.isDerived = true → p.name = q.name → p = q := by
  constructor
  · rintro ⟨hallowed, hcompatible⟩
    refine ⟨hallowed, ?_, fun p hp q hq _ hname => ?_⟩
    · -- two users' policies of one name are not compatible, even when they are equal
      refine List.pairwise_map.mpr ((hcompatible.filter _).imp_of_mem ?_)
      intro p q hp _ hpq hname
      have huser := (List.mem_filter.mp hp).2
      rw [(hpq hname).1] at huser
      cases huser
    · by_contra hne
      have hpq := hcompatible.forall hp hq hne
      exact hne (hpq hname).2
  · rintro ⟨hallowed, hnodup, hshared⟩
    refine ⟨hallowed, ?_⟩
    clear hallowed
    induction ps with
    | nil => exact .nil
    | cons p ps ih =>
      have hrest : ((ps.filter (!·.isDerived)).map (·.name)).Nodup :=
        hnodup.sublist (((List.sublist_cons_self p ps).filter _).map _)
      refine List.pairwise_cons.mpr ⟨fun q hq hname => ?_, ih hrest fun p' hp' q' hq' =>
        hshared p' (List.mem_cons_of_mem _ hp') q' (List.mem_cons_of_mem _ hq')⟩
      have hmem : q ∈ p :: ps := List.mem_cons_of_mem _ hq
      cases hp : p.isDerived with
      | true => exact ⟨rfl, hshared p List.mem_cons_self q hmem hp hname⟩
      | false =>
        cases hq' : q.isDerived with
        | true =>
          have heq := hshared q hmem p List.mem_cons_self hq' hname.symm
          rw [heq, hp] at hq'
          cases hq'
        | false =>
          rw [List.filter_cons_of_pos (by simp [hp]), List.map_cons, List.nodup_cons] at hnodup
          exact absurd (List.mem_map.mpr ⟨q, List.mem_filter.mpr ⟨hq, by simp [hq']⟩, hname.symm⟩)
            hnodup.1

end Policies

namespace Registry

variable {r r' : Registry}

theorem nodup_names (r : Registry) : r.names.Nodup :=
  List.pairwise_map.mpr (r.ascending.imp KeyOrder.ne_of_lt)

/-- Registries with the same policies are equal. -/
theorem ext_mem (h : ∀ p, p ∈ r.policies ↔ p ∈ r'.policies) : r = r' := by
  have hnodup : ∀ r : Registry, r.policies.Nodup := fun r => r.nodup_names.of_map _
  have hperm : r.policies.Perm r'.policies :=
    (List.perm_ext_iff_of_nodup (hnodup r) (hnodup r')).mpr h
  have hlist : r.policies = r'.policies := by
    refine hperm.eq_of_pairwise ?_ r.ascending r'.ascending
    intro p q _ _ hpq hqp
    exact absurd hqp (KeyOrder.asymm hpq)
  cases r
  cases r'
  rw [mk.injEq]
  exact hlist

theorem get?_eq_some_iff {name : String} {p : Policy} :
    r.get? name = some p ↔ p ∈ r.policies ∧ p.name = name := by
  constructor
  · intro h
    exact ⟨mem_of_get? h, by simpa using List.find?_some h⟩
  · rintro ⟨hp, rfl⟩
    cases hget : r.get? p.name with
    | none => exact absurd rfl (get?_eq_none_iff.mp hget p hp)
    | some q =>
      have hname : q.name = p.name := by simpa using List.find?_some hget
      rw [List.inj_on_of_nodup_map r.nodup_names (mem_of_get? hget) hp hname]

/-- Storing a policy fails when the policy is refused after those of the registry. -/
theorem define_error_iff {p : Policy} (hr : r.DerivedPlain) (hp : p.isDerived = true → p.Plain)
    {e : DefineError} : r.define p = .error e ↔ p.Refused r.policies e := by
  constructor
  · intro h
    unfold define at h
    split at h
    · rename_i hname
      cases h
      rw [Bool.and_eq_true, Bool.not_eq_true'] at hname
      exact .reserved hname.1 hname.2
    · rename_i hname
      split at h
      · rename_i stored hstored
        split at h
        · cases h
        · rename_i hdiffers
          cases h
          obtain ⟨hmem, hsame⟩ := get?_eq_some_iff.mp hstored
          refine .duplicate stored hmem hsame (Policy.allowed_iff.mp (Bool.not_eq_true _ ▸ hname)) ?_
          rintro hderived rfl
          simp [hderived, Policy.same] at hdiffers
      · cases h
  · intro h
    cases h with
    | reserved huser hname =>
      rw [define, huser, hname]
      rfl
    | duplicate q hmem hname hok hdiffers =>
      have hget : r.get? p.name = some q := get?_eq_some_iff.mpr ⟨hmem, hname⟩
      have hdifferent : (p.isDerived && q.same p) = false := by
        cases hderived : p.isDerived with
        | false => rfl
        | true =>
          cases hsame : q.same p with
          | false => rfl
          | true =>
            have hplain := hr q hmem ((Policy.isDerived_of_same hsame).trans hderived)
            exact absurd (hplain.eq_of_same (hp hderived) hsame) (hdiffers hderived)
      unfold define
      rw [Policy.allowed_iff.mpr hok, hget]
      simp only [hdifferent, Bool.false_eq_true, if_false]

/-! ## Lists of definitions -/

theorem defineAll_append (ds es : List Definition) :
    (r.defineAll (ds ++ es)).2 = (r.defineAll ds).2.bind fun r' => (r'.defineAll es).2 := by
  induction ds generalizing r with
  | nil => rfl
  | cons d ds ih =>
    rw [List.cons_append, defineAll, defineAll]
    split
    · rfl
    · exact ih

theorem defineAll_singleton (d : Definition) :
    (r.defineAll [d]).2 = (r.define d.policy).map Prod.snd := by
  rw [defineAll]
  cases r.define d.policy with
  | error e => rfl
  | ok stored => rfl

/-- A list of definitions fails as the first one that cannot be stored after those before it. -/
theorem defineAll_eq_error_iff {ds : List Definition} {e : DefineError} :
    (r.defineAll ds).2 = .error e ↔ ∃ earlier d later r', ds = earlier ++ d :: later ∧
      (r.defineAll earlier).2 = .ok r' ∧ r'.define d.policy = .error e := by
  constructor
  · intro h
    induction ds generalizing r with
    | nil => cases h
    | cons d ds ih =>
      rw [defineAll] at h
      split at h
      · rename_i hdefine
        cases h
        exact ⟨[], d, ds, r, rfl, rfl, hdefine⟩
      · rename_i notices r₁ hdefine
        obtain ⟨earlier, d', later, r', rfl, hearlier, hrefused⟩ := ih h
        refine ⟨d :: earlier, d', later, r', rfl, ?_, hrefused⟩
        rw [defineAll, hdefine]
        exact hearlier
  · rintro ⟨earlier, d, later, r', rfl, hearlier, hrefused⟩
    rw [defineAll_append, hearlier]
    show (r'.defineAll (d :: later)).2 = .error e
    rw [defineAll, hrefused]

section Definitions

variable {ds : List Definition} (hds : ∀ d ∈ ds, d.policy.isDerived = true → d.policy.Plain)

include hds

/-- The policies that an empty registry holds after a list of definitions. -/
theorem mem_defineAll_empty_iff (h : (empty.defineAll ds).2 = .ok r) (p : Policy) :
    p ∈ r.policies ↔ p ∈ ds.map Definition.policy := by
  rcases hdefine : empty.defineAll ds with ⟨notices, result⟩
  rw [hdefine] at h
  obtain rfl : result = .ok r := h
  have hempty : empty.DerivedPlain := fun p hp => by cases hp
  rw [mem_defineAll_iff hempty hds hdefine, List.mem_map]
  exact or_iff_right List.not_mem_nil

theorem derivedPlain_defineAll_empty (h : (empty.defineAll ds).2 = .ok r) : r.DerivedPlain := by
  intro p hp
  obtain ⟨d, hd, rfl⟩ := List.mem_map.mp ((mem_defineAll_empty_iff hds h p).mp hp)
  exact hds d hd

/-- Storing a policy after a list of definitions fails when it is refused after their policies. -/
theorem define_error_after_iff (h : (empty.defineAll ds).2 = .ok r) {p : Policy}
    (hp : p.isDerived = true → p.Plain) {e : DefineError} :
    r.define p = .error e ↔ p.Refused (ds.map Definition.policy) e := by
  have hsame := mem_defineAll_empty_iff hds h
  rw [define_error_iff (derivedPlain_defineAll_empty hds h) hp]
  exact ⟨fun he => he.congr hsame, fun he => he.congr fun q => (hsame q).symm⟩

/-- **When a list of definitions can be stored:** when its policies can be stored together. -/
theorem exists_defineAll_iff :
    (∃ r, (empty.defineAll ds).2 = .ok r) ↔ Policies.Settled (ds.map Definition.policy) := by
  induction ds using List.reverseRecOn with
  | nil => exact ⟨fun _ => ⟨by simp, .nil⟩, fun _ => ⟨empty, rfl⟩⟩
  | append_singleton ds d ih =>
    obtain ⟨hinit, hd⟩ := List.forall_mem_append.mp hds
    have hlast := hd d List.mem_cons_self
    rw [List.map_append, List.map_singleton, Policies.settled_concat_iff, ← ih hinit,
      defineAll_append]
    cases hr : (empty.defineAll ds).2 with
    | error e =>
      constructor
      · rintro ⟨r', h⟩
        cases h
      · rintro ⟨⟨r', h⟩, -⟩
        cases h
    | ok r =>
      have hrefused := fun e => define_error_after_iff hinit hr hlast (e := e)
      show (∃ r', (r.defineAll [d]).2 = .ok r') ↔ _
      rw [defineAll_singleton]
      cases hdefine : r.define d.policy with
      | error e =>
        constructor
        · rintro ⟨r', h⟩
          cases h
        · rintro ⟨-, h⟩
          exact absurd ((hrefused e).mp hdefine) (h e)
      | ok stored =>
        refine ⟨fun _ => ⟨⟨r, rfl⟩, fun e he => ?_⟩, fun _ => ⟨stored.2, rfl⟩⟩
        rw [← hrefused, hdefine] at he
        cases he

/-- **Which failure a list of definitions gives:** that of the first policy that is refused after
those before it. -/
theorem defineAll_error_iff {e : DefineError} :
    (empty.defineAll ds).2 = .error e ↔ ∃ earlier d later, ds = earlier ++ d :: later ∧
      Policies.Settled (earlier.map Definition.policy) ∧
      d.policy.Refused (earlier.map Definition.policy) e := by
  rw [defineAll_eq_error_iff]
  constructor
  · rintro ⟨earlier, d, later, r', rfl, hearlier, hdefine⟩
    obtain ⟨hinit, hrest⟩ := List.forall_mem_append.mp hds
    exact ⟨earlier, d, later, rfl, (exists_defineAll_iff hinit).mp ⟨r', hearlier⟩,
      (define_error_after_iff hinit hearlier (hrest d List.mem_cons_self)).mp hdefine⟩
  · rintro ⟨earlier, d, later, rfl, hsettled, hrefused⟩
    obtain ⟨hinit, hrest⟩ := List.forall_mem_append.mp hds
    obtain ⟨r', hearlier⟩ := (exists_defineAll_iff hinit).mpr hsettled
    exact ⟨earlier, d, later, r', rfl, hearlier,
      (define_error_after_iff hinit hearlier (hrest d List.mem_cons_self)).mpr hrefused⟩

end Definitions

end Registry

end RoutePolicy
