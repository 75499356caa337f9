/-
**Devices.**

The machine works with a display, a sound device, a source of keys and a clock.  A device is any
state with the operations below; an operation hands back the state afterwards and, where it can
fail, its failure.

Main definitions:

* `Chip8.DisplayDevice` — shows a picture of bytes, or clears it;
* `Chip8.SoundDevice` — rings, is told of each frame, falls silent;
* `Chip8.KeyEvent`, `Chip8.KeyDevice` — tells what happened at the keys since it was last asked;
* `Chip8.FrameClock` — waits for the next frame.
-/
import Chip8.Log

set_option relaxedAutoImplicit false
set_option autoImplicit false

namespace Chip8

/-- Something that shows pictures. -/
class DisplayDevice (δ : Type) where
  /-- Show a picture, one byte for each cell. -/
  render : δ → List UInt8 → Except IoFailure Unit × δ
  clear : δ → Except IoFailure Unit × δ

/-- Something that makes a sound. -/
class SoundDevice (σ : Type) where
  beep : σ → Except String Unit × σ
  update : σ → Except String Unit × σ
  stop : σ → Except String Unit × σ

/-- What can happen at the keys. -/
inductive KeyEvent where
  | pressed (key : UInt8)
  | released (key : UInt8)
  | quit
deriving DecidableEq, Repr

/-- The answer of a source of keys. -/
structure Polled (ι : Type) where
  /-- The events since the last answer, in order, or the failure to get at them. -/
  events : Except IoFailure (List KeyEvent)
  /-- The source afterwards. -/
  device : ι
  /-- What was noted on the way. -/
  log : List Record

/-- Something that tells of keys. -/
class KeyDevice (ι : Type) where
  /-- Ask for what happened. -/
  poll : ι → Polled ι

/-- Something that waits for the next frame. -/
class FrameClock (κ : Type) where
  wait : κ → κ

end Chip8
