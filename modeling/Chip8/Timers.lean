/-
**Timers.**

Two byte counters run down to zero: the delay timer, which programs read, and the sound timer,
which rings as it takes its last step.

Main definitions: `Chip8.Timers` and `Chip8.Timers.tick`, one step of both counters.

Main results: `Chip8.Timers.toNat_stepDown`, a counter goes down by one but not below zero, and
`Chip8.Timers.rings_iff`, the step that rings is the one from one to zero.
-/

set_option relaxedAutoImplicit false
set_option autoImplicit false

namespace Chip8

/-- The two counters. -/
structure Timers where
  delay : UInt8
  sound : UInt8
deriving DecidableEq, Repr

namespace Timers

/-- Both at rest. -/
def new : Timers :=
  ⟨0, 0⟩

/-- One step down, but not below zero. -/
def stepDown (n : UInt8) : UInt8 :=
  if n = 0 then 0 else n - 1

/-- One step of both counters, and whether the sound timer rings. -/
def tick (t : Timers) : Bool × Timers :=
  (t.sound == 1, ⟨stepDown t.delay, stepDown t.sound⟩)

/-- Counting down is subtraction that stops at zero. -/
theorem toNat_stepDown (n : UInt8) : (stepDown n).toNat = n.toNat - 1 := by
  unfold stepDown
  split
  · rename_i h
    subst h
    rfl
  · rename_i h
    have hn : n.toNat ≠ 0 := fun h0 => h (UInt8.toNat_inj.1 h0)
    have h1 : (1 : UInt8) ≤ n := by
      rw [UInt8.le_iff_toNat_le]
      exact Nat.one_le_iff_ne_zero.2 hn
    rw [UInt8.toNat_sub_of_le n 1 h1]
    rfl

/-- The step that rings is the one from one to zero. -/
theorem rings_iff (t : Timers) :
    t.tick.1 = true ↔ t.sound ≠ 0 ∧ t.tick.2.sound = 0 := by
  have key : (stepDown t.sound = 0) ↔ t.sound.toNat - 1 = 0 := by
    rw [← UInt8.toNat_inj, toNat_stepDown]
    rfl
  have h0 : t.sound = 0 ↔ t.sound.toNat = 0 := by
    rw [← UInt8.toNat_inj]
    rfl
  have h1 : t.sound = 1 ↔ t.sound.toNat = 1 := by
    rw [← UInt8.toNat_inj]
    rfl
  simp only [tick, beq_iff_eq, ne_eq, key, h0, h1]
  omega

end Timers

end Chip8
