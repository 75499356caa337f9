/-
**The stream of random bytes.**

A seed determines an endless stream of bytes, of which a machine takes one for each random
instruction it executes.  The seed is stretched to a key by a linear congruential generator with
permuted output; the bytes are the low bytes of the words of the ChaCha stream of that key.

Main definitions:

* `Chip8.RandomStream.byteAt` — the byte at a position of the stream of a seed;
* `Chip8.RandomStream` — a seed and how many bytes have been taken;
* `Chip8.RandomStream.take` — the next byte.

Main result: `Chip8.RandomStream.take_fst`, the byte taken is the one at the count of those before.
-/
import Chip8.Random.ChaCha

set_option relaxedAutoImplicit false
set_option autoImplicit false

namespace Chip8

/-- A place in the stream of a seed. -/
structure RandomStream where
  /-- The number that determines the stream. -/
  seed : UInt64
  /-- How many bytes have been taken. -/
  taken : Nat
deriving DecidableEq, Repr

namespace RandomStream

/-! ### From a seed to a key -/

/-- One step of the congruential generator. -/
def advance (state : UInt64) : UInt64 :=
  state * 6364136223846793005 + 11634580027462260723

/-- The word that a state of the generator puts out: a fold of its bits, rotated to the right by
its top five. -/
def output (state : UInt64) : UInt32 :=
  let folded := (((state >>> 18) ^^^ state) >>> 27).toUInt32
  let turn := (state >>> 59).toUInt32
  (folded >>> turn) ||| (folded <<< ((32 - turn) &&& 31))

/-- The key of a seed. -/
def key (seed : UInt64) : Vector UInt32 8 :=
  let s0 := advance seed
  let s1 := advance s0
  let s2 := advance s1
  let s3 := advance s2
  let s4 := advance s3
  let s5 := advance s4
  let s6 := advance s5
  let s7 := advance s6
  #v[output s0, output s1, output s2, output s3, output s4, output s5, output s6, output s7]

/-! ### The bytes -/

/-- The byte at position `n` of the stream of a seed. -/
def byteAt (seed : UInt64) (n : Nat) : UInt8 :=
  let words := ChaCha.block 6 (key seed) (UInt64.ofNat (n / 16))
  words[(⟨n % 16, Nat.mod_lt _ (by decide)⟩ : Fin 16)].toUInt8

/-- The beginning of the stream of a seed. -/
def new (seed : UInt64) : RandomStream :=
  ⟨seed, 0⟩

/-- Take the next byte. -/
def take (s : RandomStream) : UInt8 × RandomStream :=
  (byteAt s.seed s.taken, { s with taken := s.taken + 1 })

@[simp]
theorem take_fst (s : RandomStream) : s.take.1 = byteAt s.seed s.taken := rfl

@[simp]
theorem take_snd (s : RandomStream) : s.take.2 = ⟨s.seed, s.taken + 1⟩ := rfl

end RandomStream

end Chip8
