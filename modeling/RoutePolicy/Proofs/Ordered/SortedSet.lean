import RoutePolicy.Ordered.SortedSet

/-!
# A sorted set is determined by its elements

* `SortedSet.ext_mem` — sets with the same elements are equal;
* `SortedSet.ofList_toList` — listing the elements of a set and collecting them again.
-/

set_option autoImplicit false

namespace RoutePolicy

namespace SortedSet

variable {α : Type} [LT α] [KeyOrder α]

theorem nodup (s : SortedSet α) : s.toList.Nodup :=
  s.ascending.imp fun hab => KeyOrder.ne_of_lt hab

/-- Sets with the same elements are equal. -/
theorem ext_mem {s t : SortedSet α} (h : ∀ x, x ∈ s ↔ x ∈ t) : s = t := by
  have hperm : s.toList.Perm t.toList := (List.perm_ext_iff_of_nodup s.nodup t.nodup).mpr h
  have hlist : s.toList = t.toList := by
    refine hperm.eq_of_pairwise ?_ s.ascending t.ascending
    intro a b _ _ hab hba
    exact absurd hba (KeyOrder.asymm hab)
  cases s
  cases t
  rw [mk.injEq]
  exact hlist

theorem ofList_toList [DecidableLT α] (s : SortedSet α) : ofList s.toList = s :=
  ext_mem fun _ => mem_ofList

end SortedSet

end RoutePolicy
