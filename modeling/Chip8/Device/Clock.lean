/-
**Clocks.**

Main definitions:

* `Chip8.FrameCount` — a clock that does not wait but counts the frames;
* `Chip8.Pacer` — a clock that spreads frames evenly over time: it tells how long to wait, given
  the present time.

Main result: `Chip8.Pacer.add_period_le_next`, a pacer never asks for a burst of frames after a
delay.
-/
import Chip8.Device

set_option relaxedAutoImplicit false
set_option autoImplicit false

namespace Chip8

/-- A clock that counts the frames. -/
structure FrameCount where
  frames : Nat
deriving DecidableEq, Repr

instance : FrameClock FrameCount where
  wait c := ⟨c.frames + 1⟩

/-- A clock that spreads frames evenly.  Times are in nanoseconds. -/
structure Pacer where
  period : Nat
  /-- When the next frame is due. -/
  next : Nat
deriving DecidableEq, Repr

namespace Pacer

/-- How long a frame takes at a frame rate; a rate of zero counts as one. -/
def periodOf (rate : Nat) : Nat :=
  1000000000 / max rate 1

/-- A pacer that starts now. -/
def new (rate now : Nat) : Pacer :=
  ⟨periodOf rate, now + periodOf rate⟩

/-- How long to wait for the next frame.  If it is overdue, the frames after it are counted from
now on and not made up for. -/
def wait (p : Pacer) (now : Nat) : Nat × Pacer :=
  if now < p.next then (p.next - now, { p with next := p.next + p.period })
  else (0, { p with next := now + p.period })

/-- After a wait the next frame is due at least a period after the present time. -/
theorem add_period_le_next (p : Pacer) (now : Nat) : now + p.period ≤ (p.wait now).2.next := by
  unfold wait
  split
  · simp only
    omega
  · simp

end Pacer

end Chip8
