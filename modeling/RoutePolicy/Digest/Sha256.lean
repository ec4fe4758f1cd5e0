/-!
# SHA-256

The message is padded to whole blocks of sixteen words; each block is mixed into a state of eight
words in sixty-four rounds, and the last state is the digest.

* `Sha256.padded` — the message, a bit, zeros and the length of the message in bits;
* `Sha256.schedule` — the sixty-four words of a block;
* `Sha256.digest` — the thirty-two bytes of the digest.
-/

set_option autoImplicit false

namespace RoutePolicy

namespace Sha256

/-- The word rotated to the right by fewer than 32 bits. -/
def rotated (x n : UInt32) : UInt32 := (x >>> n) ||| (x <<< (32 - n))

/-- The fractional parts of the cube roots of the first sixty-four primes. -/
def roundConstants : List UInt32 :=
  [0x428a2f98, 0x71374491, 0xb5c0fbcf, 0xe9b5dba5, 0x3956c25b, 0x59f111f1, 0x923f82a4, 0xab1c5ed5,
    0xd807aa98, 0x12835b01, 0x243185be, 0x550c7dc3, 0x72be5d74, 0x80deb1fe, 0x9bdc06a7, 0xc19bf174,
    0xe49b69c1, 0xefbe4786, 0x0fc19dc6, 0x240ca1cc, 0x2de92c6f, 0x4a7484aa, 0x5cb0a9dc, 0x76f988da,
    0x983e5152, 0xa831c66d, 0xb00327c8, 0xbf597fc7, 0xc6e00bf3, 0xd5a79147, 0x06ca6351, 0x14292967,
    0x27b70a85, 0x2e1b2138, 0x4d2c6dfc, 0x53380d13, 0x650a7354, 0x766a0abb, 0x81c2c92e, 0x92722c85,
    0xa2bfe8a1, 0xa81a664b, 0xc24b8b70, 0xc76c51a3, 0xd192e819, 0xd6990624, 0xf40e3585, 0x106aa070,
    0x19a4c116, 0x1e376c08, 0x2748774c, 0x34b0bcb5, 0x391c0cb3, 0x4ed8aa4a, 0x5b9cca4f, 0x682e6ff3,
    0x748f82ee, 0x78a5636f, 0x84c87814, 0x8cc70208, 0x90befffa, 0xa4506ceb, 0xbef9a3f7, 0xc67178f2]

/-- The eight words between two blocks. -/
structure State where
  a : UInt32
  b : UInt32
  c : UInt32
  d : UInt32
  e : UInt32
  f : UInt32
  g : UInt32
  h : UInt32

/-- The fractional parts of the square roots of the first eight primes. -/
def State.initial : State :=
  ⟨0x6a09e667, 0xbb67ae85, 0x3c6ef372, 0xa54ff53a, 0x510e527f, 0x9b05688c, 0x1f83d9ab, 0x5be0cd19⟩

/-- The sum of two states, word by word. -/
def State.add (s t : State) : State :=
  ⟨s.a + t.a, s.b + t.b, s.c + t.c, s.d + t.d, s.e + t.e, s.f + t.f, s.g + t.g, s.h + t.h⟩

/-- The words of a state. -/
def State.words (s : State) : List UInt32 := [s.a, s.b, s.c, s.d, s.e, s.f, s.g, s.h]

/-- One round with a word of the schedule and its constant. -/
def round (s : State) (word constant : UInt32) : State :=
  let choice := (s.e &&& s.f) ^^^ (~~~s.e &&& s.g)
  let majority := (s.a &&& s.b) ^^^ (s.a &&& s.c) ^^^ (s.b &&& s.c)
  let lower := rotated s.e 6 ^^^ rotated s.e 11 ^^^ rotated s.e 25
  let upper := rotated s.a 2 ^^^ rotated s.a 13 ^^^ rotated s.a 22
  let mixed := s.h + lower + choice + constant + word
  ⟨mixed + upper + majority, s.a, s.b, s.c, s.d + mixed, s.e, s.f, s.g⟩

/-- Adds words to a schedule that is listed from the newest word to the oldest. -/
def extended : Nat → List UInt32 → List UInt32
  | 0, ws => ws
  | n + 1, ws =>
    let near := ws.getD 1 0
    let far := ws.getD 14 0
    let nearMix := rotated near 17 ^^^ rotated near 19 ^^^ (near >>> 10)
    let farMix := rotated far 7 ^^^ rotated far 18 ^^^ (far >>> 3)
    extended n ((nearMix + ws.getD 6 0 + farMix + ws.getD 15 0) :: ws)

/-- The sixty-four words of a block of sixteen. -/
def schedule (block : List UInt32) : List UInt32 := (extended 48 block.reverse).reverse

/-- Mixes a block into a state. -/
def compressed (s : State) (block : List UInt32) : State :=
  s.add (((schedule block).zip roundConstants).foldl (fun s w => round s w.1 w.2) s)

/-- Mixes the blocks of a list of words into a state. -/
def absorbed (s : State) : List UInt32 → State
  | [] => s
  | w :: ws => absorbed (compressed s (w :: ws.take 15)) (ws.drop 15)
termination_by ws => ws.length
decreasing_by
  simp only [List.length_drop, List.length_cons]
  omega

/-- The bytes of a number, most significant first. -/
def bigEndian : Nat → Nat → List UInt8
  | 0, _ => []
  | count + 1, n => bigEndian count (n / 256) ++ [UInt8.ofNat n]

/-- The words of a list of bytes, most significant byte first. -/
def wordsOf : List UInt8 → List UInt32
  | a :: b :: c :: d :: rest =>
    (((a.toUInt32 <<< 8 ||| b.toUInt32) <<< 8 ||| c.toUInt32) <<< 8 ||| d.toUInt32) :: wordsOf rest
  | _ => []

/-- The number of zero bytes that completes the last block of a message. -/
def zeros (length : Nat) : Nat := (119 - length % 64) % 64

/-- The message with its padding. -/
def padded (message : List UInt8) : List UInt8 :=
  message ++ 0x80 :: List.replicate (zeros message.length) 0 ++ bigEndian 8 (8 * message.length)

theorem length_bigEndian (count n : Nat) : (bigEndian count n).length = count := by
  induction count generalizing n with
  | zero => rfl
  | succ count ih => simp [bigEndian, ih]

theorem length_padded (message : List UInt8) : (padded message).length % 64 = 0 := by
  simp only [padded, List.length_append, List.length_cons, List.length_replicate, length_bigEndian,
    zeros]
  omega

/-- The digest of a message. -/
def digest (message : List UInt8) : List UInt8 :=
  (absorbed .initial (wordsOf (padded message))).words.flatMap fun w => bigEndian 4 w.toNat

end Sha256

end RoutePolicy
