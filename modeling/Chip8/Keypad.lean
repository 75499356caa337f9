/-
**The keypad.**

The keys that are down.  A key is a byte: the sixteen keys of the pad are the first, and a program
may ask for any other, which is then just up.

Main definitions: `Chip8.Keypad` with `press`, `release`, `isPressed` and `pressedKeys`.

Main results: `Chip8.Keypad.isPressed_press`, `Chip8.Keypad.isPressed_release`, and
`Chip8.Keypad.ext`, a keypad is the set of its pressed keys.
-/

set_option relaxedAutoImplicit false
set_option autoImplicit false

namespace Chip8

/-- The keys that are down, by number. -/
structure Keypad where
  /-- For each key, whether it is down. -/
  down : Vector Bool 256
deriving DecidableEq

namespace Keypad

/-- All keys up. -/
def new : Keypad :=
  ⟨Vector.replicate 256 false⟩

/-- Whether a key is down. -/
def isPressed (k : Keypad) (key : UInt8) : Bool :=
  k.down[key.toFin]

/-- Put a key down. -/
def press (k : Keypad) (key : UInt8) : Keypad :=
  ⟨k.down.set key.toFin true⟩

/-- Let a key up. -/
def release (k : Keypad) (key : UInt8) : Keypad :=
  ⟨k.down.set key.toFin false⟩

/-- The keys that are down, in ascending order. -/
def pressedKeys (k : Keypad) : List UInt8 :=
  ((List.range 256).map UInt8.ofNat).filter k.isPressed

/-! ### Laws -/

@[simp]
theorem isPressed_new (key : UInt8) : new.isPressed key = false := by
  simp [new, isPressed]

theorem isPressed_press (k : Keypad) (key other : UInt8) :
    (k.press key).isPressed other = (key == other || k.isPressed other) := by
  by_cases h : key = other
  · simp [isPressed, press, h]
  · have hne : key.toNat ≠ other.toNat := fun e => h (UInt8.toNat_inj.1 e)
    simp [isPressed, press, h, hne]

theorem isPressed_release (k : Keypad) (key other : UInt8) :
    (k.release key).isPressed other = (key != other && k.isPressed other) := by
  by_cases h : key = other
  · simp [isPressed, release, h]
  · have hne : key.toNat ≠ other.toNat := fun e => h (UInt8.toNat_inj.1 e)
    simp [isPressed, release, h, hne]

/-- A keypad is the set of its pressed keys. -/
theorem ext {a b : Keypad} (h : ∀ key, a.isPressed key = b.isPressed key) : a = b := by
  obtain ⟨da⟩ := a
  obtain ⟨db⟩ := b
  congr 1
  apply Vector.ext
  intro n hn
  simpa [isPressed, Nat.mod_eq_of_lt hn] using h (UInt8.ofNat n)

end Keypad

end Chip8
