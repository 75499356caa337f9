/-
**A machine at work.**

A machine together with a clock and a source of keys.  A run starts the machine and then, frame by
frame, waits for the clock, asks for the keys, hands their events to the machine in order and ticks
it, until a limit of frames is reached, the user asks to leave or something fails.

Main definitions:

* `Chip8.Console` — the machine, the clock and the keys;
* `Chip8.Console.handle` — hand the events of a frame to the machine;
* `Chip8.Console.frame` — a frame;
* `Chip8.Console.play` — a number of frames;
* `Chip8.Console.run` — start, play and stop.

Main result: `Chip8.Console.play_succ`, a run unfolds frame by frame.
-/
import Chip8.Machine

set_option relaxedAutoImplicit false
set_option autoImplicit false

namespace Chip8

/-- A machine, the clock that paces it and the keys that it listens to. -/
structure Console (δ σ κ ι : Type) where
  machine : Machine δ σ
  clock : κ
  keys : ι

/-- How a frame, or a number of them, ends. -/
inductive Ending where
  | completed
  | quit
  | failed (e : Error)
deriving DecidableEq, Repr

namespace Ending

/-- Leaving is no failure. -/
def result : Ending → Except Error Unit
  | completed | quit => .ok ()
  | failed e => .error e

end Ending

namespace Console

variable {δ σ κ ι : Type}

/-- Hand events to a machine in order, up to the first that asks to leave.  `frames` is how many
frames have been completed. -/
def handle (frames : Nat) : List KeyEvent → Machine δ σ → Ending × Machine δ σ
  | [], m => (.completed, m)
  | .pressed key :: events, m =>
    match m.setKey key with
    | (.ok (), m) => handle frames events m
    | (.error e, m) => (.failed e, m)
  | .released key :: events, m => handle frames events (m.unsetKey key)
  | .quit :: _, m => (.quit, (m.note (.quitting frames)).stop)

/-- A frame: wait, ask for the keys, hand them over, tick. -/
def frame [DisplayDevice δ] [SoundDevice σ] [FrameClock κ] [KeyDevice ι] (frames : Nat)
    (c : Console δ σ κ ι) : Ending × Console δ σ κ ι :=
  let clock := FrameClock.wait c.clock
  let polled := KeyDevice.poll c.keys
  let m := c.machine.noteAll polled.log
  match polled.events with
  | .error failure => (.failed (.io failure), ⟨m, clock, polled.device⟩)
  | .ok events =>
    match handle frames events m with
    | (.completed, m) =>
      match m.tick with
      | (.ok (), m) => (.completed, ⟨m, clock, polled.device⟩)
      | (.error e, m) => (.failed e, ⟨m, clock, polled.device⟩)
    | (ending, m) => (ending, ⟨m, clock, polled.device⟩)

/-- Up to `n` frames, `frames` of them having been completed before. -/
def play [DisplayDevice δ] [SoundDevice σ] [FrameClock κ] [KeyDevice ι] (frames : Nat) :
    Nat → Console δ σ κ ι → Ending × Console δ σ κ ι
  | 0, c => (.completed, c)
  | n + 1, c =>
    match c.frame frames with
    | (.completed, c) => play (frames + 1) n c
    | (ending, c) => (ending, c)

/-- The frame counter has sixty-four bits: a run without a limit is over at the latest when the
counter is full. -/
def frameCeiling : Nat :=
  0xffffffffffffffff

/-- Start the machine, play up to the limit and stop the machine if that was reached. -/
def run [DisplayDevice δ] [SoundDevice σ] [FrameClock κ] [KeyDevice ι] (limit : Option Nat)
    (c : Console δ σ κ ι) : Ending × Console δ σ κ ι :=
  match c.machine.start with
  | (.error e, m) => (.failed e, { c with machine := m })
  | (.ok (), m) =>
    match play 0 (limit.getD frameCeiling) { c with machine := m } with
    | (.completed, c) => (.completed, { c with machine := c.machine.stop })
    | (ending, c) => (ending, c)

/-! ### Laws -/

@[simp]
theorem play_zero [DisplayDevice δ] [SoundDevice σ] [FrameClock κ] [KeyDevice ι] (frames : Nat)
    (c : Console δ σ κ ι) : play frames 0 c = (.completed, c) := rfl

theorem play_succ [DisplayDevice δ] [SoundDevice σ] [FrameClock κ] [KeyDevice ι] (frames n : Nat)
    (c : Console δ σ κ ι) :
    play frames (n + 1) c =
      match c.frame frames with
      | (.completed, c) => play (frames + 1) n c
      | (ending, c) => (ending, c) := rfl

end Console

end Chip8
