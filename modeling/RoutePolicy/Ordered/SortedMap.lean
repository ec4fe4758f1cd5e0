import RoutePolicy.Ordered.KeyOrder

/-!
# Finite maps in ascending key order

`SortedMap κ ν` is a list of entries whose keys ascend, so no key occurs twice and equality of
maps is equality of lists.

* `insert` replaces or adds an entry, `find?` reads one;
* `find?_insert_self` and `find?_insert_of_ne` describe `insert` through `find?`.
-/

set_option autoImplicit false

namespace RoutePolicy

/-- A finite map, listed in ascending order of its keys. -/
structure SortedMap (κ ν : Type) [LT κ] where
  entries : List (κ × ν)
  ascending : entries.Pairwise (fun a b => a.1 < b.1)
  deriving DecidableEq

namespace SortedMap

variable {κ ν : Type} [LT κ] [DecidableLT κ]

/-- Writes the entry of `k` in a list with ascending keys. -/
def insertIn (k : κ) (v : ν) : List (κ × ν) → List (κ × ν)
  | [] => [(k, v)]
  | e :: rest =>
    if k < e.1 then (k, v) :: e :: rest
    else if e.1 < k then e :: insertIn k v rest
    else (k, v) :: rest

theorem key_of_mem_insertIn {k : κ} {v : ν} {e : κ × ν} {l : List (κ × ν)}
    (h : e ∈ insertIn k v l) : e = (k, v) ∨ e ∈ l := by
  induction l with
  | nil => simpa [insertIn] using h
  | cons f rest ih =>
    rw [insertIn] at h
    split at h
    · simpa using h
    · split at h
      · rcases List.mem_cons.mp h with rfl | h
        · simp
        · rcases ih h with h | h <;> simp [h]
      · rcases List.mem_cons.mp h with rfl | h
        · simp
        · simp [h]

theorem pairwise_insertIn [KeyOrder κ] (k : κ) (v : ν) {l : List (κ × ν)}
    (h : l.Pairwise (fun a b => a.1 < b.1)) :
    (insertIn k v l).Pairwise (fun a b => a.1 < b.1) := by
  induction l with
  | nil => simp [insertIn]
  | cons f rest ih =>
    rw [insertIn]
    obtain ⟨hf, hr⟩ := List.pairwise_cons.mp h
    split
    · rename_i hk
      refine List.pairwise_cons.mpr ⟨fun a ha => ?_, h⟩
      rcases List.mem_cons.mp ha with rfl | ha
      · exact hk
      · exact KeyOrder.trans hk (hf a ha)
    · split
      · rename_i hk
        refine List.pairwise_cons.mpr ⟨fun a ha => ?_, ih hr⟩
        rcases key_of_mem_insertIn ha with rfl | ha
        · exact hk
        · exact hf a ha
      · rename_i h1 h2
        have e : k = f.1 := KeyOrder.connected h1 h2
        exact List.pairwise_cons.mpr ⟨fun a ha => e ▸ hf a ha, hr⟩

/-- The map without entries. -/
def empty : SortedMap κ ν := ⟨[], .nil⟩

instance : Inhabited (SortedMap κ ν) := ⟨empty⟩

/-- The number of entries. -/
def size (m : SortedMap κ ν) : Nat := m.entries.length

/-- Whether there is no entry. -/
def isEmpty (m : SortedMap κ ν) : Bool := m.entries.isEmpty

/-- The keys, ascending. -/
def keys (m : SortedMap κ ν) : List κ := m.entries.map (·.1)

/-- The value of a key in a list of entries. -/
def findIn [DecidableEq κ] (k : κ) : List (κ × ν) → Option ν
  | [] => none
  | e :: rest => if e.1 = k then some e.2 else findIn k rest

/-- The value of a key. -/
def find? [DecidableEq κ] (k : κ) (m : SortedMap κ ν) : Option ν := findIn k m.entries

/-- Whether a key has a value. -/
def contains [DecidableEq κ] (k : κ) (m : SortedMap κ ν) : Bool := (m.find? k).isSome

variable [KeyOrder κ]

/-- The map with the entry of `k` written. -/
def insert (k : κ) (v : ν) (m : SortedMap κ ν) : SortedMap κ ν :=
  ⟨insertIn k v m.entries, pairwise_insertIn k v m.ascending⟩

/-- The map of a list of entries; of several entries for a key the last one counts. -/
def ofList (l : List (κ × ν)) : SortedMap κ ν :=
  l.foldl (fun m e => m.insert e.1 e.2) empty

theorem findIn_insertIn_self [DecidableEq κ] (k : κ) (v : ν) (l : List (κ × ν)) :
    findIn k (insertIn k v l) = some v := by
  induction l with
  | nil => simp [insertIn, findIn]
  | cons f rest ih =>
    rw [insertIn]
    split
    · simp [findIn]
    · split
      · rename_i h
        simp [findIn, KeyOrder.ne_of_lt h, ih]
      · simp [findIn]

theorem findIn_insertIn_of_ne [DecidableEq κ] {k k' : κ} (v : ν) (h : k' ≠ k)
    (l : List (κ × ν)) : findIn k' (insertIn k v l) = findIn k' l := by
  induction l with
  | nil => simp [insertIn, findIn, Ne.symm h]
  | cons f rest ih =>
    rw [insertIn]
    split
    · simp [findIn, Ne.symm h]
    · split
      · simp [findIn, ih]
      · rename_i h1 h2
        have e : k = f.1 := KeyOrder.connected h1 h2
        subst e
        simp [findIn, Ne.symm h]

theorem find?_insert_self [DecidableEq κ] (k : κ) (v : ν) (m : SortedMap κ ν) :
    (m.insert k v).find? k = some v := findIn_insertIn_self k v m.entries

theorem find?_insert_of_ne [DecidableEq κ] {k k' : κ} (v : ν) (h : k' ≠ k)
    (m : SortedMap κ ν) : (m.insert k v).find? k' = m.find? k' :=
  findIn_insertIn_of_ne v h m.entries

end SortedMap

end RoutePolicy
