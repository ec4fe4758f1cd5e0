import RoutePolicy.Evaluation.Evaluate
import Mathlib.Data.List.Nodup
import Mathlib.Data.List.Perm.Subperm

/-!
# Lists of places

Stacks of running policies and lists of top-level runs hold places of one table, and none of them
twice.  Such a list is not longer than the table.

* `Table.Within` — the places are places of the table;
* `Table.Places`, `Table.Places.length_le` — they are distinct as well, and therefore few.
-/

set_option autoImplicit false

namespace RoutePolicy

namespace Table

variable {t : Table} {ids : List PolicyId} {id : PolicyId} {p : Policy}

/-- All places of a list are places of the table. -/
def Within (t : Table) (ids : List PolicyId) : Prop := ∀ id ∈ ids, id.index < t.size

theorem within_singleton (hg : t.get? id = some p) : t.Within [id] :=
  fun _ hid => List.mem_singleton.mp hid ▸ index_lt_of_get? hg

theorem Within.append (h : t.Within ids) (hg : t.get? id = some p) : t.Within (ids ++ [id]) := by
  intro id' hid'
  rcases List.mem_append.mp hid' with hid' | hid'
  · exact h id' hid'
  · exact within_singleton hg id' hid'

/-- Distinct places of a table. -/
structure Places (t : Table) (ids : List PolicyId) : Prop where
  nodup : ids.Nodup
  within : t.Within ids

namespace Places

theorem singleton (hg : t.get? id = some p) : t.Places [id] where
  nodup := List.nodup_singleton id
  within := within_singleton hg

theorem append (h : t.Places ids) (hfresh : id ∉ ids) (hg : t.get? id = some p) :
    t.Places (ids ++ [id]) where
  nodup := by
    refine List.nodup_append.mpr ⟨h.nodup, List.nodup_singleton id, ?_⟩
    rintro a ha b hb rfl
    exact hfresh (List.mem_singleton.mp hb ▸ ha)
  within := h.within.append hg

theorem sublist {ids' : List PolicyId} (h : t.Places ids) (hsub : ids'.Sublist ids) :
    t.Places ids' where
  nodup := h.nodup.sublist hsub
  within id hid := h.within id (hsub.mem hid)

/-- A table has room for as many distinct places as it has policies. -/
theorem length_le (h : t.Places ids) : ids.length ≤ t.size := by
  have hsub : ids.map PolicyId.index ⊆ List.range t.size := by
    intro i hi
    obtain ⟨id, hid, rfl⟩ := List.mem_map.mp hi
    exact List.mem_range.mpr (h.within id hid)
  have hinjective : Function.Injective PolicyId.index := fun ⟨_⟩ ⟨_⟩ hab => congrArg _ hab
  have hnodup : (ids.map PolicyId.index).Nodup := List.Nodup.map hinjective h.nodup
  have hle := (List.subperm_of_subset hnodup hsub).length_le
  simpa using hle

end Places

end Table

end RoutePolicy
