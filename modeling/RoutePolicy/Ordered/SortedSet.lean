import RoutePolicy.Ordered.KeyOrder

/-!
# Finite sets in ascending order

`SortedSet α` is a list without repetitions in ascending order.  The order is part of the type,
so equality of sets is equality of lists.

* `insert`, `ofList`, `union`, `diff`, `filter` keep the order;
* `mem_insert`, `mem_ofList`, `mem_union`, `mem_diff` say what they contain.
-/

set_option autoImplicit false

namespace RoutePolicy

/-- A finite set, listed in ascending order. -/
structure SortedSet (α : Type) [LT α] where
  toList : List α
  ascending : toList.Pairwise (· < ·)
  deriving DecidableEq

namespace SortedSet

variable {α : Type} [LT α] [DecidableLT α]

/-- Puts `x` where it belongs in an ascending list, unless it is there already. -/
def insertIn (x : α) : List α → List α
  | [] => [x]
  | y :: rest => if x < y then x :: y :: rest else if y < x then y :: insertIn x rest else y :: rest

theorem mem_insertIn [KeyOrder α] {x y : α} {l : List α} : y ∈ insertIn x l ↔ y = x ∨ y ∈ l := by
  induction l with
  | nil => simp [insertIn]
  | cons z rest ih =>
    rw [insertIn]
    split
    · simp
    · split
      · simp only [List.mem_cons, ih]
        constructor
        · rintro (h | h | h) <;> simp [h]
        · rintro (h | h | h) <;> simp [h]
      · rename_i h h'
        have e : x = z := KeyOrder.connected h h'
        subst e
        simp

theorem pairwise_insertIn [KeyOrder α] (x : α) {l : List α} (h : l.Pairwise (· < ·)) :
    (insertIn x l).Pairwise (· < ·) := by
  induction l with
  | nil => simp [insertIn]
  | cons z rest ih =>
    rw [insertIn]
    obtain ⟨hz, hr⟩ := List.pairwise_cons.mp h
    split
    · rename_i hx
      refine List.pairwise_cons.mpr ⟨fun a ha => ?_, h⟩
      rcases List.mem_cons.mp ha with rfl | ha
      · exact hx
      · exact KeyOrder.trans hx (hz a ha)
    · split
      · rename_i hx
        refine List.pairwise_cons.mpr ⟨fun a ha => ?_, ih hr⟩
        rcases mem_insertIn.mp ha with rfl | ha
        · exact hx
        · exact hz a ha
      · exact h

/-- The set without elements. -/
def empty : SortedSet α := ⟨[], .nil⟩

instance : Inhabited (SortedSet α) := ⟨empty⟩

instance : Membership α (SortedSet α) := ⟨fun s x => x ∈ s.toList⟩

instance [DecidableEq α] (x : α) (s : SortedSet α) : Decidable (x ∈ s) :=
  inferInstanceAs (Decidable (x ∈ s.toList))

omit [DecidableLT α] in
theorem mem_def {x : α} {s : SortedSet α} : x ∈ s ↔ x ∈ s.toList := Iff.rfl

variable [KeyOrder α]

/-- The set with `x` added. -/
def insert (x : α) (s : SortedSet α) : SortedSet α :=
  ⟨insertIn x s.toList, pairwise_insertIn x s.ascending⟩

/-- The set with every element of a list added. -/
def insertAll (s : SortedSet α) (l : List α) : SortedSet α :=
  l.foldl (fun s x => s.insert x) s

/-- The elements of a list, each once. -/
def ofList (l : List α) : SortedSet α := (empty : SortedSet α).insertAll l

/-- The elements of either set. -/
def union (s t : SortedSet α) : SortedSet α := s.insertAll t.toList

/-- The elements that satisfy `p`. -/
def filter (p : α → Bool) (s : SortedSet α) : SortedSet α :=
  ⟨s.toList.filter p, s.ascending.filter p⟩

/-- The elements of `s` that are not in `t`. -/
def diff [DecidableEq α] (s t : SortedSet α) : SortedSet α := s.filter (fun x => decide (x ∉ t))

theorem mem_insert {x y : α} {s : SortedSet α} : y ∈ s.insert x ↔ y = x ∨ y ∈ s := mem_insertIn

theorem mem_insertAll {y : α} {l : List α} {s : SortedSet α} :
    y ∈ s.insertAll l ↔ y ∈ s ∨ y ∈ l := by
  induction l generalizing s with
  | nil => simp [insertAll]
  | cons x rest ih =>
    show y ∈ (s.insert x).insertAll rest ↔ _
    rw [ih, mem_insert, List.mem_cons]
    constructor
    · rintro ((h | h) | h) <;> simp [h]
    · rintro (h | h | h) <;> simp [h]

theorem mem_ofList {y : α} {l : List α} : y ∈ ofList l ↔ y ∈ l := by
  rw [ofList, mem_insertAll]
  simp [mem_def, empty]

theorem mem_union {y : α} {s t : SortedSet α} : y ∈ s.union t ↔ y ∈ s ∨ y ∈ t := mem_insertAll

omit [KeyOrder α] [DecidableLT α] in
theorem mem_diff [DecidableEq α] {y : α} {s t : SortedSet α} :
    y ∈ s.diff t ↔ y ∈ s ∧ y ∉ t := by
  simp [diff, filter, mem_def]

end SortedSet

end RoutePolicy
