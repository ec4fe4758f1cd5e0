import RoutePolicy.Proofs.Ordered.SortedMap
import RoutePolicy.Proofs.Registry.Repeats

/-!
# A registry that is changed in place

A registry lists policies, each under the name that it bears, and a definition that fails has no
registry to give.  A program that keeps the policies as a map from names and changes it step by step
has neither for free: a policy could come to stand under another name, and a failure could leave
something behind.  Such a map goes through the same states as the registry, so that neither happens.

* `PolicyStore`, `PolicyStore.define`, `PolicyStore.perform` — policies under keys, changed in place;
* `PolicyStore.Refuses`, `PolicyStore.Outcome`, `PolicyStore.outcome_define` — all that a definition
  can do;
* `PolicyStore.Sound`, `PolicyStore.Sound.perform` — what every operation preserves;
* `Registry.store_perform`, `Registry.store_after` — the map and the registry after operations;
* `PolicyStore.after_empty` — all of this for the maps that operations lead to.
-/

set_option autoImplicit false

namespace RoutePolicy

/-- A change that is asked of a registry before it is frozen. -/
inductive Registry.Operation where
  | define (p : Policy)
  | simplifyAll
  deriving DecidableEq

namespace Registry

/-- The registry after an operation; one that fails leaves it as it was. -/
def perform (r : Registry) : Operation → Registry
  | .define p =>
    match r.define p with
    | .ok (_, r') => r'
    | .error _ => r
  | .simplifyAll => r.simplifyAll

/-- The registry after a list of operations. -/
def after (r : Registry) (ops : List Operation) : Registry := ops.foldl perform r

end Registry

/-- Policies under keys.  Nothing in this type says that a policy stands under its own name. -/
abbrev PolicyStore := SortedMap String Policy

namespace PolicyStore

/-- Writes a policy under its name, given what stands there. -/
def place (p : Policy) : Option Policy → ExceptT DefineError (StateM PolicyStore) (List Notice)
  | some stored =>
    if p.isDerived && stored.same p then return [] else throw (.duplicate p.name)
  | none => do
    modify (·.insert p.name p)
    return [.event (.policyDefined p.name p.statements.length p.isDerived)]

/-- Stores a policy in place.  What is written before a failure stays written. -/
def define (p : Policy) : ExceptT DefineError (StateM PolicyStore) (List Notice) := do
  if !p.isDerived && isReservedName p.name then throw (.reservedName p.name)
  else place p ((← get).find? p.name)

/-- Replaces every policy by what simplification makes of it; the keys stay. -/
def simplifyAll : StateM PolicyStore Unit := modify (·.mapValues Policy.simplify)

/-- What an operation gives, and the policies after it. -/
def perform (s : PolicyStore) : Registry.Operation → Except DefineError (List Notice) × PolicyStore
  | .define p => (define p).run s
  | .simplifyAll => (.ok [], (simplifyAll.run s).2)

/-- The policies after a list of operations. -/
def after (s : PolicyStore) (ops : List Registry.Operation) : PolicyStore :=
  ops.foldl (fun s o => (s.perform o).2) s

/-! ## One operation -/

/-- Why a policy is refused: a user gave it a reserved name, or its name is taken by a policy that
is not the same derived policy.  The first reason goes before the second one. -/
inductive Refuses (s : PolicyStore) (p : Policy) : DefineError → Prop where
  | reserved (user : p.isDerived = false) (name_reserved : isReservedName p.name = true) :
    Refuses s p (.reservedName p.name)
  | duplicate (stored : Policy) (find_eq : s.find? p.name = some stored)
      (allowed : p.isDerived = true ∨ isReservedName p.name = false)
      (differs : ¬ (p.isDerived = true ∧ stored.same p = true)) : Refuses s p (.duplicate p.name)

/-- All that a definition can do. -/
inductive Outcome (s : PolicyStore) (p : Policy) :
    Except DefineError (List Notice) × PolicyStore → Prop where
  | refused (e : DefineError) (refuses : s.Refuses p e) : Outcome s p (.error e, s)
  | again (stored : Policy) (find_eq : s.find? p.name = some stored) (derived : p.isDerived = true)
      (same : stored.same p = true) : Outcome s p (.ok [], s)
  | new (free : s.find? p.name = none)
      (allowed : p.isDerived = true ∨ isReservedName p.name = false) :
    Outcome s p (.ok [.event (.policyDefined p.name p.statements.length p.isDerived)],
      s.insert p.name p)

section Definition

variable (s : PolicyStore) (p : Policy)

theorem run_define : (define p).run s =
    if !p.isDerived && isReservedName p.name then (.error (.reservedName p.name), s)
    else (place p (s.find? p.name)).run s := by
  unfold define
  split
  · rfl
  · rfl

/-- A definition fails and changes nothing, finds the same derived policy and changes nothing, or
writes under a name that was free. -/
theorem outcome_define : Outcome s p ((define p).run s) := by
  rw [run_define]
  split
  · rename_i hname
    rw [Bool.and_eq_true, Bool.not_eq_true'] at hname
    exact .refused _ (.reserved hname.1 hname.2)
  · rename_i hname
    have hallowed := Policy.allowed_iff.mp (Bool.not_eq_true _ ▸ hname)
    cases hfind : s.find? p.name with
    | none => exact .new hfind hallowed
    | some stored =>
      rw [place]
      split
      · rename_i hsame
        rw [Bool.and_eq_true] at hsame
        exact .again stored hfind hsame.1 hsame.2
      · rename_i hdiffers
        rw [Bool.and_eq_true] at hdiffers
        exact .refused _ (.duplicate stored hfind hallowed hdiffers)

variable {s p}

theorem Refuses.define_eq {e : DefineError} (h : s.Refuses p e) :
    (define p).run s = (.error e, s) := by
  rw [run_define]
  cases h with
  | reserved huser hname =>
    rw [huser, hname]
    rfl
  | duplicate stored hfind hallowed hdiffers =>
    have hdifferent : (p.isDerived && stored.same p) = false := by simpa using hdiffers
    rw [Policy.allowed_iff.mpr hallowed, hfind, place, hdifferent]
    rfl

/-- What a definition that succeeds leaves: all entries of other names, all entries that were there,
and the policy itself where there was none. -/
structure Stored (s : PolicyStore) (p : Policy) (s' : PolicyStore) : Prop where
  others : ∀ name, name ≠ p.name → s'.find? name = s.find? name
  kept : ∀ name stored, s.find? name = some stored → s'.find? name = some stored
  new : s.find? p.name = none → s'.find? p.name = some p

variable {result : Except DefineError (List Notice) × PolicyStore}

theorem Outcome.of_error {e : DefineError} (h : Outcome s p result) (he : result.1 = .error e) :
    s.Refuses p e ∧ result.2 = s := by
  cases h with
  | refused e' hrefuses =>
    cases he
    exact ⟨hrefuses, rfl⟩
  | again => cases he
  | new => cases he

theorem Outcome.of_ok {notices : List Notice} (h : Outcome s p result)
    (hok : result.1 = .ok notices) : s.Stored p result.2 := by
  cases h with
  | refused => cases hok
  | again stored hfind _ _ =>
    refine ⟨fun _ _ => rfl, fun _ _ h => h, fun hfree => ?_⟩
    rw [hfree] at hfind
    cases hfind
  | new hfree =>
    have hothers : ∀ name, name ≠ p.name → (s.insert p.name p).find? name = s.find? name :=
      fun name hname => SortedMap.find?_insert_of_ne p hname s
    refine ⟨hothers, fun name stored hfind => ?_, fun _ => SortedMap.find?_insert_self p.name p s⟩
    have hname : name ≠ p.name := by
      rintro rfl
      rw [hfree] at hfind
      cases hfind
    exact (hothers name hname).trans hfind

end Definition

/-! ## Operations one after the other -/

/-- Every policy stands under its own name, and no user's policy under a reserved one. -/
structure Sound (s : PolicyStore) : Prop where
  own_name : ∀ name p, s.find? name = some p → p.name = name
  allowed : ∀ name p, s.find? name = some p → p.isDerived = true ∨ isReservedName name = false

theorem sound_empty : Sound .empty where
  own_name _ _ h := by cases h
  allowed _ _ h := by cases h

variable {s : PolicyStore} (hs : s.Sound)

include hs

theorem Sound.insert {p : Policy} (hp : p.isDerived = true ∨ isReservedName p.name = false) :
    Sound (s.insert p.name p) := by
  have hfind : ∀ name q, (s.insert p.name p).find? name = some q →
      (name = p.name ∧ q = p) ∨ s.find? name = some q := by
    intro name q h
    by_cases hname : name = p.name
    · subst hname
      rw [SortedMap.find?_insert_self, Option.some.injEq] at h
      exact .inl ⟨rfl, h.symm⟩
    · rw [SortedMap.find?_insert_of_ne p hname] at h
      exact .inr h
  constructor
  · intro name q h
    rcases hfind name q h with ⟨rfl, rfl⟩ | h
    · rfl
    · exact hs.own_name name q h
  · intro name q h
    rcases hfind name q h with ⟨rfl, rfl⟩ | h
    · exact hp
    · exact hs.allowed name q h

/-- Simplified policies keep their names and their authors. -/
theorem Sound.simplified : Sound (s.mapValues Policy.simplify) := by
  have hfind : ∀ name q, (s.mapValues Policy.simplify).find? name = some q →
      ∃ p, s.find? name = some p ∧ p.simplify = q := fun name q h => by
    rwa [SortedMap.find?_mapValues, Option.map_eq_some_iff] at h
  constructor
  · intro name q h
    obtain ⟨p, hp, rfl⟩ := hfind name q h
    exact hs.own_name name p hp
  · intro name q h
    obtain ⟨p, hp, rfl⟩ := hfind name q h
    exact hs.allowed name p hp

/-- What every operation preserves. -/
theorem Sound.perform (o : Registry.Operation) : (s.perform o).2.Sound := by
  cases o with
  | simplifyAll => exact hs.simplified
  | define p =>
    show ((define p).run s).2.Sound
    generalize (define p).run s = result, outcome_define s p = houtcome
    cases houtcome with
    | refused => exact hs
    | again => exact hs
    | new _ hallowed => exact hs.insert hallowed

theorem Sound.after (ops : List Registry.Operation) : (after s ops).Sound := by
  induction ops generalizing s with
  | nil => exact hs
  | cons o ops ih => exact ih (hs.perform o)

end PolicyStore

/-! ## The map and the registry -/

namespace Registry

/-- The policies of a registry under their names. -/
def store (r : Registry) : PolicyStore :=
  ⟨r.policies.map fun p => (p.name, p), List.pairwise_map.mpr r.ascending⟩

variable (r : Registry)

theorem find?_store (name : String) : r.store.find? name = r.get? name := by
  show SortedMap.findIn name (r.policies.map fun p => (p.name, p)) =
    r.policies.find? fun p => p.name == name
  induction r.policies with
  | nil => rfl
  | cons p rest ih =>
    rw [List.map_cons, SortedMap.findIn, List.find?_cons]
    by_cases hname : p.name = name
    · simp [hname]
    · rw [if_neg hname, beq_eq_false_iff_ne.mpr hname]
      exact ih

/-- Writing under a free name in the map is storing in the registry. -/
theorem store_insert {p : Policy} (hfree : r.get? p.name = none) :
    (r.insert p).store = r.store.insert p.name p := by
  have hnames : ∀ l : List Policy, (∀ q ∈ l, q.name ≠ p.name) →
      (insertIn p l).map (fun q => (q.name, q)) =
        SortedMap.insertIn p.name p (l.map fun q => (q.name, q)) := by
    intro l hl
    induction l with
    | nil => rfl
    | cons q rest ih =>
      obtain ⟨hq, hrest⟩ := List.forall_mem_cons.mp hl
      rw [insertIn, List.map_cons, SortedMap.insertIn]
      split
      · rfl
      · split
        · rw [List.map_cons, ih hrest]
        · rename_i hbefore hbehind
          exact absurd (KeyOrder.connected hbefore hbehind).symm hq
  exact SortedMap.ext_entries (hnames r.policies (get?_eq_none_iff.mp hfree))

theorem store_simplifyAll : r.simplifyAll.store = r.store.mapValues Policy.simplify := by
  refine SortedMap.ext_entries ?_
  show (r.policies.map Policy.simplify).map _ = (r.policies.map _).map _
  rw [List.map_map, List.map_map]
  rfl

/-- A definition does the same to the map as to the registry, and gives the same. -/
theorem run_define_store (p : Policy) : (PolicyStore.define p).run r.store =
    ((r.define p).map Prod.fst, (r.perform (.define p)).store) := by
  rw [PolicyStore.run_define, perform, find?_store, define]
  split
  · rfl
  · cases hget : r.get? p.name with
    | none =>
      rw [PolicyStore.place]
      exact congrArg (Prod.mk _) (r.store_insert hget).symm
    | some stored =>
      rw [PolicyStore.place]
      dsimp only
      split
      · rfl
      · rfl

theorem store_perform (o : Operation) : (r.store.perform o).2 = (r.perform o).store := by
  cases o with
  | define p => exact congrArg Prod.snd (r.run_define_store p)
  | simplifyAll => exact r.store_simplifyAll.symm

theorem store_after (ops : List Operation) : r.store.after ops = (r.after ops).store := by
  induction ops generalizing r with
  | nil => rfl
  | cons o ops ih =>
    show PolicyStore.after (r.store.perform o).2 ops = _
    rw [store_perform]
    exact ih (r.perform o)

end Registry

/-- **Operations on a new registry.**  Whatever was asked before, a map that is changed in place
holds what the registry holds, every policy under its own name and no user's policy under a reserved
one.  The next definition fails exactly for the reasons of `Refuses`, and then the map is as it was;
otherwise it touches no entry of another name and no entry that was there.  The registry gives the
same answer to it. -/
theorem PolicyStore.after_empty (ops : List Registry.Operation) :
    let r := Registry.empty.after ops
    let s := PolicyStore.after .empty ops
    s = r.store ∧
    (∀ name p, s.find? name = some p →
      p.name = name ∧ (p.isDerived = true ∨ isReservedName name = false)) ∧
    ∀ p, (define p).run s = ((r.define p).map Prod.fst, (r.perform (.define p)).store) ∧
      (∀ e, ((define p).run s).1 = .error e ↔ s.Refuses p e) ∧
      (∀ e, ((define p).run s).1 = .error e → ((define p).run s).2 = s) ∧
      ∀ notices, ((define p).run s).1 = .ok notices → s.Stored p ((define p).run s).2 := by
  intro r s
  have hs : s.Sound := sound_empty.after ops
  have hstore : s = r.store := Registry.store_after .empty ops
  refine ⟨hstore, fun name p h => ⟨hs.own_name name p h, hs.allowed name p h⟩, fun p => ?_⟩
  have houtcome := outcome_define s p
  exact ⟨hstore ▸ r.run_define_store p,
    fun e => ⟨fun he => (houtcome.of_error he).1, fun h => congrArg Prod.fst h.define_eq⟩,
    fun e he => (houtcome.of_error he).2, fun notices hok => houtcome.of_ok hok⟩

/-- A name that is taken stays so, whoever asks for it next. -/
example :
    let s := PolicyStore.after .empty [.define { name := "p", statements := [] }, .simplifyAll]
    (PolicyStore.define (.derived "p" [])).run s = (.error (.duplicate "p"), s) ∧
      (PolicyStore.define { name := "~p", statements := [] }).run s =
        (.error (.reservedName "~p"), s) :=
  ⟨rfl, rfl⟩

end RoutePolicy
