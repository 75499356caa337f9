/-
**Displays that keep what they are shown.**

Main definitions:

* `Chip8.PictureLog` — a display that never fails, counts its calls and keeps the last picture;
* `Chip8.FailingDisplay` — a display in front of another one that fails in chosen calls.
-/
import Chip8.Device

set_option relaxedAutoImplicit false
set_option autoImplicit false

namespace Chip8

/-- A display that never fails. -/
structure PictureLog where
  renders : Nat
  /-- How many times it was cleared. -/
  clears : Nat
  /-- The last picture, dark where it was cleared since. -/
  lastFrame : List UInt8
deriving DecidableEq, Repr

namespace PictureLog

/-- Nothing shown yet. -/
def new : PictureLog :=
  ⟨0, 0, []⟩

/-- Keep a picture. -/
def render (d : PictureLog) (pixels : List UInt8) : PictureLog :=
  { d with renders := d.renders + 1, lastFrame := pixels }

/-- Darken the picture that is kept. -/
def clear (d : PictureLog) : PictureLog :=
  { d with clears := d.clears + 1, lastFrame := d.lastFrame.map fun _ => 0 }

instance : DisplayDevice PictureLog where
  render d pixels := (.ok (), d.render pixels)
  clear d := (.ok (), d.clear)

end PictureLog

/-- A display that fails in chosen calls, counted from one, and else hands them on. -/
structure FailingDisplay (δ : Type) where
  inner : δ
  /-- How many pictures it was given. -/
  renderCalls : Nat
  /-- How many times it was to be cleared. -/
  clearCalls : Nat
  failRender : List Nat
  failClear : List Nat
deriving DecidableEq, Repr

namespace FailingDisplay

variable {δ : Type}

/-- Nothing asked yet. -/
def new (inner : δ) (failRender failClear : List Nat) : FailingDisplay δ :=
  ⟨inner, 0, 0, failRender, failClear⟩

instance [DisplayDevice δ] : DisplayDevice (FailingDisplay δ) where
  render d pixels :=
    let n := d.renderCalls + 1
    if n ∈ d.failRender then (.error (.other "render failed"), { d with renderCalls := n })
    else
      let (result, inner) := DisplayDevice.render d.inner pixels
      (result, { d with inner := inner, renderCalls := n })
  clear d :=
    let n := d.clearCalls + 1
    if n ∈ d.failClear then (.error (.other "clear failed"), { d with clearCalls := n })
    else
      let (result, inner) := DisplayDevice.clear d.inner
      (result, { d with inner := inner, clearCalls := n })

end FailingDisplay

end Chip8
