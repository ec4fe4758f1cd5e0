/-!
# Slices by bytes

Positions in a text, counted in the bytes of its UTF-8 form.  A position inside a character is none.

* `byteLength` — the length of a text;
* `byteSlice?` — the text between two positions;
* `byteSlice?_append` — slicing finds what stands between two parts.
-/

set_option autoImplicit false

namespace RoutePolicy

/-- The length of a text in bytes. -/
def byteLength : List Char → Nat
  | [] => 0
  | c :: rest => c.utf8Size + byteLength rest

/-- The text before a position. -/
def takeBytes? : Nat → List Char → Option (List Char)
  | 0, _ => some []
  | _ + 1, [] => none
  | n + 1, c :: rest =>
    if c.utf8Size ≤ n + 1 then (takeBytes? (n + 1 - c.utf8Size) rest).map (c :: ·) else none

/-- The text from a position on. -/
def dropBytes? : Nat → List Char → Option (List Char)
  | 0, cs => some cs
  | _ + 1, [] => none
  | n + 1, c :: rest =>
    if c.utf8Size ≤ n + 1 then dropBytes? (n + 1 - c.utf8Size) rest else none

/-- The text from one position up to another. -/
def byteSlice? (i j : Nat) (cs : List Char) : Option (List Char) :=
  (dropBytes? i cs).bind (takeBytes? (j - i))

theorem takeBytes?_append (a b : List Char) : takeBytes? (byteLength a) (a ++ b) = some a := by
  induction a with
  | nil => simp [byteLength, takeBytes?]
  | cons c rest ih =>
    have hc := c.utf8Size_pos
    obtain ⟨n, hn⟩ : ∃ n, c.utf8Size + byteLength rest = n + 1 :=
      ⟨c.utf8Size + byteLength rest - 1, by omega⟩
    have hrest : n + 1 - c.utf8Size = byteLength rest := by omega
    simp [byteLength, hn, takeBytes?, hrest, ih, show c.utf8Size ≤ n + 1 by omega]

theorem dropBytes?_append (a b : List Char) : dropBytes? (byteLength a) (a ++ b) = some b := by
  induction a with
  | nil => simp [byteLength, dropBytes?]
  | cons c rest ih =>
    have hc := c.utf8Size_pos
    obtain ⟨n, hn⟩ : ∃ n, c.utf8Size + byteLength rest = n + 1 :=
      ⟨c.utf8Size + byteLength rest - 1, by omega⟩
    have hrest : n + 1 - c.utf8Size = byteLength rest := by omega
    simp [byteLength, hn, dropBytes?, hrest, ih, show c.utf8Size ≤ n + 1 by omega]

theorem byteSlice?_append (a b c : List Char) :
    byteSlice? (byteLength a) (byteLength a + byteLength b) (a ++ b ++ c) = some b := by
  rw [List.append_assoc, byteSlice?, dropBytes?_append, Option.bind_some, Nat.add_sub_cancel_left,
    takeBytes?_append]

end RoutePolicy
