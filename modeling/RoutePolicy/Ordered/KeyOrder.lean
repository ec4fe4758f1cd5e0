/-!
# Orders on keys

Sets and maps in this library list their elements in the ascending order of a key, so that two
collections with the same content are the same value and print the same way.  This file holds
the laws that such an order has to keep:

* `KeyOrder` — a strict total order, as a property of an existing `<`;
* instances for words and for text (text is ordered as its bytes in UTF-8 are, which is the order
  of its characters' code points).
-/

set_option autoImplicit false

namespace RoutePolicy

/-- The relation `<` on `α` is a strict total order. -/
class KeyOrder (α : Type) [LT α] : Prop where
  irrefl : ∀ a : α, ¬ a < a
  trans : ∀ {a b c : α}, a < b → b < c → a < c
  connected : ∀ {a b : α}, ¬ a < b → ¬ b < a → a = b

namespace KeyOrder

variable {α : Type} [LT α] [KeyOrder α]

theorem asymm {a b : α} (h : a < b) : ¬ b < a :=
  fun h' => irrefl a (trans h h')

theorem ne_of_lt {a b : α} (h : a < b) : a ≠ b :=
  fun e => irrefl b (e ▸ h)

end KeyOrder

instance : KeyOrder String where
  irrefl := String.lt_irrefl
  trans := String.lt_trans
  connected h h' := Std.le_antisymm (Std.not_lt.mp h') (Std.not_lt.mp h)

instance : KeyOrder UInt32 where
  irrefl := UInt32.lt_irrefl
  trans := UInt32.lt_trans
  connected h h' := UInt32.le_antisymm (UInt32.not_lt.mp h') (UInt32.not_lt.mp h)

end RoutePolicy
