/-
**Sources of bytes.**

A program is read from a source that hands out its bytes piece by piece and in the end either runs
dry or fails.  A reader that wants all of it collects the pieces in order and keeps nothing if the
source fails, however much it had got by then.

Main definitions:

* `Chip8.ByteSource` — the pieces and the failure after them, if any;
* `Chip8.ByteSource.chunked` — data in pieces of a bounded size, failing at a given point;
* `Chip8.ByteSource.readAll` — everything, or the failure.

Main result: `Chip8.ByteSource.flatten_splitEvery`, cutting into pieces loses nothing.
-/
import Chip8.Error

set_option relaxedAutoImplicit false
set_option autoImplicit false

namespace Chip8

/-- A source of bytes: what it hands out, piece by piece, and how it ends. -/
structure ByteSource where
  /-- The pieces, in order. -/
  pieces : List (List UInt8)
  /-- The failure that comes after the last piece, if the source does not simply run dry. -/
  failure : Option IoFailure

namespace ByteSource

/-- Cut a list into pieces of at most `size` elements, and at least one. -/
def splitEvery (size : Nat) : List UInt8 → List (List UInt8)
  | [] => []
  | b :: bs => (b :: bs.take (size - 1)) :: splitEvery size (bs.drop (size - 1))
termination_by bs => bs.length
decreasing_by simp only [List.length_drop, List.length_cons]; omega

/-- Data handed out in pieces of at most `size` bytes.  If a failure is given with a position
within the data, the source fails once that many bytes are out. -/
def chunked (data : List UInt8) (size : Nat) (failAt : Option (Nat × IoFailure)) : ByteSource :=
  match failAt with
  | some (n, failure) =>
    if n ≤ data.length then ⟨splitEvery size (data.take n), some failure⟩
    else ⟨splitEvery size data, none⟩
  | none => ⟨splitEvery size data, none⟩

/-- All bytes of the source, or its failure. -/
def readAll (source : ByteSource) : Except IoFailure (List UInt8) :=
  match source.failure with
  | some failure => .error failure
  | none => .ok source.pieces.flatten

/-- Pieces put together again. -/
@[simp]
theorem flatten_splitEvery (size : Nat) (data : List UInt8) :
    (splitEvery size data).flatten = data := by
  fun_induction splitEvery size data with
  | case1 => rfl
  | case2 b bs ih => simp [ih, List.take_append_drop]

end ByteSource

end Chip8
