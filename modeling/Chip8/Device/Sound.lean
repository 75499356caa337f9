/-
**Sound devices.**

Main definitions:

* `Chip8.Mute` — a device without a sound;
* `Chip8.BeepCount` — a device that counts how often it rang;
* `Chip8.Tone` — a device that rings until it is told to stop;
* `Chip8.FailingSound` — a device in front of another one that fails in chosen calls.
-/
import Chip8.Device

set_option relaxedAutoImplicit false
set_option autoImplicit false

namespace Chip8

/-- A device without a sound. -/
inductive Mute where
  | mute
deriving DecidableEq, Repr

instance : SoundDevice Mute where
  beep s := (.ok (), s)
  update s := (.ok (), s)
  stop s := (.ok (), s)

/-- A device that counts how often it rang. -/
structure BeepCount where
  beeps : Nat
deriving DecidableEq, Repr

instance : SoundDevice BeepCount where
  beep s := (.ok (), ⟨s.beeps + 1⟩)
  update s := (.ok (), s)
  stop s := (.ok (), s)

/-- A device that rings until it is told to stop. -/
structure Tone where
  isBeeping : Bool
deriving DecidableEq, Repr

instance : SoundDevice Tone where
  beep _ := (.ok (), ⟨true⟩)
  update s := (.ok (), s)
  stop _ := (.ok (), ⟨false⟩)

/-- A device that fails in chosen calls, counted from one, and else hands them on. -/
structure FailingSound (σ : Type) where
  inner : σ
  /-- How many times it was to ring. -/
  beepCalls : Nat
  /-- How many frames it was told of. -/
  updateCalls : Nat
  failBeep : List Nat
  /-- The frames that it fails in. -/
  failUpdate : List Nat
deriving DecidableEq, Repr

namespace FailingSound

variable {σ : Type}

/-- Nothing asked yet. -/
def new (inner : σ) (failBeep failUpdate : List Nat) : FailingSound σ :=
  ⟨inner, 0, 0, failBeep, failUpdate⟩

instance [SoundDevice σ] : SoundDevice (FailingSound σ) where
  beep s :=
    let n := s.beepCalls + 1
    if n ∈ s.failBeep then (.error "beep failed", { s with beepCalls := n })
    else
      let (result, inner) := SoundDevice.beep s.inner
      (result, { s with inner := inner, beepCalls := n })
  update s :=
    let n := s.updateCalls + 1
    if n ∈ s.failUpdate then (.error "update failed", { s with updateCalls := n })
    else
      let (result, inner) := SoundDevice.update s.inner
      (result, { s with inner := inner, updateCalls := n })
  stop s :=
    let (result, inner) := SoundDevice.stop s.inner
    (result, { s with inner := inner })

end FailingSound

end Chip8
