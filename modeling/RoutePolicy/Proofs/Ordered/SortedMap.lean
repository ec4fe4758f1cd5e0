import RoutePolicy.Ordered.SortedMap

/-!
# What determines a sorted map

* `SortedMap.insertIn_of_forall_lt` — an entry with a larger key than all others goes to the end;
* `SortedMap.ofList_entries` — listing the entries of a map and collecting them again;
* `SortedMap.mapValues`, `SortedMap.find?_mapValues` — a function applied to every value;
* `SortedMap.find?_eq_some_iff`, `SortedMap.ext_find?` — a map is determined by what it has under
  each key.
-/

set_option autoImplicit false

namespace RoutePolicy

namespace SortedMap

variable {κ ν : Type} [LT κ]

theorem ext_entries {m n : SortedMap κ ν} (h : m.entries = n.entries) : m = n := by
  cases m
  cases n
  rw [mk.injEq]
  exact h

/-- The map with a function applied to every value. -/
def mapValues {ν' : Type} (f : ν → ν') (m : SortedMap κ ν) : SortedMap κ ν' :=
  ⟨m.entries.map fun e => (e.1, f e.2), List.pairwise_map.mpr m.ascending⟩

theorem find?_mapValues [DecidableEq κ] {ν' : Type} (f : ν → ν') (k : κ) (m : SortedMap κ ν) :
    (m.mapValues f).find? k = (m.find? k).map f := by
  show findIn k (m.entries.map fun e => (e.1, f e.2)) = (findIn k m.entries).map f
  induction m.entries with
  | nil => rfl
  | cons e rest ih =>
    rw [List.map_cons, findIn, findIn]
    split
    · rfl
    · exact ih

variable [KeyOrder κ]

theorem findIn_eq_some_iff [DecidableEq κ] {k : κ} {v : ν} {l : List (κ × ν)}
    (h : l.Pairwise fun a b => a.1 < b.1) : findIn k l = some v ↔ (k, v) ∈ l := by
  induction l with
  | nil => simp [findIn]
  | cons e rest ih =>
    obtain ⟨he, hrest⟩ := List.pairwise_cons.mp h
    rw [findIn, List.mem_cons]
    split
    · rename_i hkey
      subst hkey
      rw [Option.some.injEq]
      constructor
      · rintro rfl
        exact .inl rfl
      · rintro (heq | hmem)
        · exact congrArg Prod.snd heq.symm
        · exact absurd (he _ hmem) (KeyOrder.irrefl _)
    · rename_i hkey
      rw [ih hrest]
      refine (or_iff_right ?_).symm
      rintro rfl
      exact hkey rfl

theorem find?_eq_some_iff [DecidableEq κ] {m : SortedMap κ ν} {k : κ} {v : ν} :
    m.find? k = some v ↔ (k, v) ∈ m.entries := findIn_eq_some_iff m.ascending

/-- Maps that have the same under every key are equal. -/
theorem ext_find? [DecidableEq κ] {m n : SortedMap κ ν} (h : ∀ k, m.find? k = n.find? k) :
    m = n := by
  have hnodup : ∀ m : SortedMap κ ν, m.entries.Nodup := fun m =>
    m.ascending.imp fun hab heq => KeyOrder.ne_of_lt hab (congrArg Prod.fst heq)
  have hperm : m.entries.Perm n.entries := by
    refine (List.perm_ext_iff_of_nodup (hnodup m) (hnodup n)).mpr fun e => ?_
    rw [← find?_eq_some_iff, ← find?_eq_some_iff, h]
  refine ext_entries (hperm.eq_of_pairwise ?_ m.ascending n.ascending)
  intro a b _ _ hab hba
  exact absurd hba (KeyOrder.asymm hab)

variable [DecidableLT κ]

theorem insertIn_of_forall_lt {k : κ} (v : ν) {l : List (κ × ν)} (h : ∀ e ∈ l, e.1 < k) :
    insertIn k v l = l ++ [(k, v)] := by
  induction l with
  | nil => rfl
  | cons e rest ih =>
    obtain ⟨he, hrest⟩ := List.forall_mem_cons.mp h
    rw [insertIn, if_neg (KeyOrder.asymm he), if_pos he, ih hrest, List.cons_append]

/-- Entries whose keys go on where a map ends are appended to it. -/
theorem entries_foldl_insert (m : SortedMap κ ν) (l : List (κ × ν))
    (h : (m.entries ++ l).Pairwise fun a b => a.1 < b.1) :
    (l.foldl (fun m e => m.insert e.1 e.2) m).entries = m.entries ++ l := by
  induction l generalizing m with
  | nil => exact (List.append_nil m.entries).symm
  | cons e rest ih =>
    have hless : ∀ f ∈ m.entries, f.1 < e.1 := fun f hf =>
      (List.pairwise_append.mp h).2.2 f hf e List.mem_cons_self
    have hinsert : (m.insert e.1 e.2).entries = m.entries ++ [e] :=
      insertIn_of_forall_lt e.2 hless
    rw [List.foldl_cons, ih _ (by rwa [hinsert, List.append_assoc]), hinsert, List.append_assoc,
      List.singleton_append]

theorem ofList_entries (m : SortedMap κ ν) : ofList m.entries = m := by
  have hentries : (ofList m.entries).entries = m.entries :=
    entries_foldl_insert empty m.entries m.ascending
  exact ext_entries hentries

end SortedMap

end RoutePolicy
