/-
**Settings of a machine.**

Main definition: `Chip8.Config`, with the usual settings as its defaults.
-/

set_option relaxedAutoImplicit false
set_option autoImplicit false

namespace Chip8

/-- The settings of a machine. -/
structure Config where
  /-- How many instructions a frame has time for. -/
  cyclesPerFrame : Nat := 10
  /-- The timers step once in so many frames. -/
  timerDivider : Nat := 2
  /-- How many frames a second has. -/
  frameRate : Nat := 60
  /-- The seed of the random bytes, if they are to be the same each time. -/
  seed : Option UInt64 := none
deriving DecidableEq, Repr

end Chip8
