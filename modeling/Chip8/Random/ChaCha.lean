/-
**The ChaCha block function.**

A stream of words from a key: the key, a block number and four constant words fill a state of
sixteen words, a fixed number of rounds stirs it, and the sum of the stirred and the plain state is
one block of the stream.

Main definitions:

* `Chip8.ChaCha.quarterRound`, `Chip8.ChaCha.doubleRound` — the stirring;
* `Chip8.ChaCha.start` — the state of a key and a block number;
* `Chip8.ChaCha.block` — one block, with the given number of double rounds.
-/

set_option relaxedAutoImplicit false
set_option autoImplicit false

namespace Chip8.ChaCha

/-- Sixteen words, a square of four rows. -/
abbrev State : Type :=
  Vector UInt32 16

/-- Rotate a word to the left by `n` bits, where `0 < n < 32`. -/
def rotate (w n : UInt32) : UInt32 :=
  (w <<< n) ||| (w >>> (32 - n))

/-- Stir four words of the state. -/
def quarterRound (s : State) (a b c d : Fin 16) : State :=
  let s := s.set a (s[a] + s[b])
  let s := s.set d (rotate (s[d] ^^^ s[a]) 16)
  let s := s.set c (s[c] + s[d])
  let s := s.set b (rotate (s[b] ^^^ s[c]) 12)
  let s := s.set a (s[a] + s[b])
  let s := s.set d (rotate (s[d] ^^^ s[a]) 8)
  let s := s.set c (s[c] + s[d])
  s.set b (rotate (s[b] ^^^ s[c]) 7)

/-- Stir the four columns, then the four diagonals. -/
def doubleRound (s : State) : State :=
  let s := quarterRound s 0 4 8 12
  let s := quarterRound s 1 5 9 13
  let s := quarterRound s 2 6 10 14
  let s := quarterRound s 3 7 11 15
  let s := quarterRound s 0 5 10 15
  let s := quarterRound s 1 6 11 12
  let s := quarterRound s 2 7 8 13
  quarterRound s 3 4 9 14

/-- Stir the state a number of times. -/
def stir : Nat → State → State
  | 0, s => s
  | n + 1, s => stir n (doubleRound s)

/-- The state of a key and a block number, with no nonce. -/
def start (key : Vector UInt32 8) (number : UInt64) : State :=
  #v[0x61707865, 0x3320646e, 0x79622d32, 0x6b206574,
    key[0], key[1], key[2], key[3], key[4], key[5], key[6], key[7],
    number.toUInt32, (number >>> 32).toUInt32, 0, 0]

/-- One block of the stream. -/
def block (doubleRounds : Nat) (key : Vector UInt32 8) (number : UInt64) : State :=
  Vector.zipWith (· + ·) (stir doubleRounds (start key number)) (start key number)

end Chip8.ChaCha
