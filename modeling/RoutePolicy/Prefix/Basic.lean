import RoutePolicy.Address

/-!
# IPv4 prefixes

A prefix is a network address and a length of at most 32 bits; the bits of the network after the
length are zero.  Both facts are part of the type, so two prefixes that cover the same addresses
are equal.

* `Prefix.ofAddress` — the prefix of a given length around an address;
* `Prefix.contains`, `Prefix.isMoreSpecificOf` — how prefixes lie in one another;
* `Prefix.compare` — the order by network and then by length.
-/

set_option autoImplicit false

namespace RoutePolicy

/-- The word whose first `length` bits are set. -/
def networkMask (length : UInt8) : UInt32 :=
  if length = 0 then 0 else 0xFFFFFFFF <<< (32 - length.toUInt32)

/-- An IPv4 prefix without host bits. -/
structure Prefix where
  network : Address
  length : UInt8
  length_le : length ≤ 32
  canonical : network.bits &&& networkMask length = network.bits
  deriving DecidableEq

namespace Prefix

/-- The prefix of the given length around an address. -/
def around (a : Address) (length : UInt8) (h : length ≤ 32) : Prefix where
  network := ⟨a.bits &&& networkMask length⟩
  length := length
  length_le := h
  canonical := by rw [UInt32.and_assoc, UInt32.and_self]

/-- The prefix of the given length around an address, when there is one of that length. -/
def ofAddress? (a : Address) (length : UInt8) : Option Prefix :=
  if h : length ≤ 32 then some (around a length h) else none

/-- The prefix of all addresses, `0.0.0.0/0`. -/
def everything : Prefix := around .unspecified 0 (by decide)

/-- Whether `q` lies inside `p` or equals it. -/
def contains (p q : Prefix) : Bool :=
  p.length ≤ q.length && q.network.bits &&& networkMask p.length == p.network.bits

/-- Whether `p` lies inside `q` and is longer, so that it may contribute to the aggregate `q`. -/
def isMoreSpecificOf (p q : Prefix) : Bool := q.length < p.length && q.contains p

/-- The order by network and then by length. -/
def compare (p q : Prefix) : Ordering :=
  (Ord.compare p.network.bits q.network.bits).then (Ord.compare p.length q.length)

end Prefix

end RoutePolicy
