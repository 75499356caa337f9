/-
**The machine.**

A processor with a display, a sound device and a run state.  Time passes in frames: a tick executes
a batch of instructions while the machine runs, shows the picture if something was drawn, steps the
timers in every so many frames and tells the sound device that a frame is over.  What the machine
notes and what it asks of its devices is kept in a journal, in order.

A key press has one of two uses: it ends a wait for a key, or it puts the key of the pad down.

Main definitions:

* `Chip8.RunState` — stopped, running, waiting for a key, or halted by a fault;
* `Chip8.Event` — an entry of the journal;
* `Chip8.Machine` — the machine, with `start`, `stop`, `reset`, `setKey`, `unsetKey`;
* `Chip8.Machine.cycle` — one instruction and what it means to the display and the run state;
* `Chip8.Machine.batch` — the instructions of a frame;
* `Chip8.Machine.tick` — a frame.

Main results: `Chip8.Machine.batch_of_not_running`, a machine that is not running executes nothing,
and `Chip8.Machine.stop_of_ne_running`, stopping such a machine changes nothing.
-/
import Chip8.Config
import Chip8.Cpu
import Chip8.Device

set_option relaxedAutoImplicit false
set_option autoImplicit false

namespace Chip8

/-- What a machine is up to. -/
inductive RunState where
  | stopped
  | running
  /-- Not executing until a key is pressed, which goes to a register. -/
  | waitingForKey (register : Nat)
  /-- Not executing until a reset, because of a word that could not be executed. -/
  | halted (word : UInt16)
deriving DecidableEq, Repr

/-- What a machine asks of its devices. -/
inductive DeviceCall where
  /-- The display is to show a picture. -/
  | render (pixels : List UInt8)
  /-- The display is to show nothing. -/
  | clear
  /-- The sound device is to ring. -/
  | beep
  /-- The sound device is told that a frame is over. -/
  | update
deriving DecidableEq, Repr

/-- An entry of the journal. -/
inductive Event where
  | noted (record : Record)
  /-- The machine asked a device for something, and it succeeded or not. -/
  | called (call : DeviceCall) (succeeded : Bool)
deriving DecidableEq, Repr

namespace Event

/-- The record of an entry. -/
def record? : Event → Option Record
  | noted r => some r
  | called _ _ => none

/-- The call of an entry. -/
def call? : Event → Option DeviceCall
  | noted _ => none
  | called c _ => some c

end Event

/-- A machine with a display of type `δ` and a sound device of type `σ`. -/
structure Machine (δ σ : Type) where
  cpu : Cpu
  /-- The display, once one is attached. -/
  display : Option δ
  sound : σ
  config : Config
  /-- What the machine is up to. -/
  state : RunState
  /-- How many frames have been completed. -/
  frame : Nat
  /-- What happened, oldest first. -/
  journal : Array Event

namespace Machine

variable {δ σ : Type}

/-- A new machine without a display.  Its random bytes have the seed of the settings, or else the
one given beside them. -/
def new (sound : σ) (config : Config) (entropy : UInt64) : Machine δ σ :=
  ⟨.new (config.seed.getD entropy), none, sound, config, .stopped, 0, #[]⟩

/-- Attach a display, in place of the one before. -/
def attach (m : Machine δ σ) (display : δ) : Machine δ σ :=
  { m with display := some display }

/-- Put a record into the journal. -/
def note (m : Machine δ σ) (record : Record) : Machine δ σ :=
  { m with journal := m.journal.push (.noted record) }

/-- Put records into the journal. -/
def noteAll (m : Machine δ σ) (records : List Record) : Machine δ σ :=
  { m with journal := m.journal ++ records.map Event.noted }

/-- The records in the journal. -/
def records (m : Machine δ σ) : List Record :=
  m.journal.toList.filterMap Event.record?

/-- The device calls in the journal. -/
def calls (m : Machine δ σ) : List DeviceCall :=
  m.journal.toList.filterMap Event.call?

/-- Whether the machine executes instructions. -/
def isRunning (m : Machine δ σ) : Bool :=
  m.state == .running

/-! ### Control -/

/-- Back to the initial state. -/
def reset (m : Machine δ σ) : Machine δ σ :=
  { m with cpu := m.cpu.reset, state := .stopped, frame := 0 }.note .wasReset

/-- Put a program into memory. -/
def load (m : Machine δ σ) (program : List UInt8) : Machine δ σ :=
  { m with cpu := m.cpu.load program }

/-- Put the program that a source holds into memory. -/
def loadFrom (m : Machine δ σ) (source : ByteSource) : Except Error Nat × Machine δ σ :=
  let (result, cpu) := m.cpu.loadFrom source
  (result, { m with cpu := cpu })

/-- Let the machine run.  A wait for a key goes on, only a key press ends it. -/
def start (m : Machine δ σ) : Except Error Unit × Machine δ σ :=
  match m.display, m.state with
  | none, _ => (.error .noDisplay, m)
  | some _, .halted word => (.error (.halted word), m)
  | some _, .waitingForKey _ => (.ok (), m)
  | some _, .stopped | some _, .running =>
    (.ok (), { m with state := .running }.note (.started m.cpu.registers.pc))

/-- Stop a running machine. -/
def stop (m : Machine δ σ) : Machine δ σ :=
  if m.isRunning then { m with state := .stopped }.note .stopped else m

/-- A key is pressed: it ends a wait for a key and goes to the register, or else it is down. -/
def setKey (m : Machine δ σ) (key : UInt8) : Except Error Unit × Machine δ σ :=
  match m.state with
  | .waitingForKey register =>
    let cpu := { m.cpu with registers := m.cpu.registers.set register key }
    ({ m with cpu := cpu, state := .stopped }.note (.resuming key register)).start
  | .stopped | .running | .halted _ =>
    (.ok (), { m with cpu := { m.cpu with keypad := m.cpu.keypad.press key } })

/-- A key is let up. -/
def unsetKey (m : Machine δ σ) (key : UInt8) : Machine δ σ :=
  { m with cpu := { m.cpu with keypad := m.cpu.keypad.release key } }

/-! ### Asking the devices -/

/-- Whether a result is one. -/
def succeeded {ε α : Type} : Except ε α → Bool
  | .ok _ => true
  | .error _ => false

/-- Have the display show nothing, if there is one. -/
def clearDisplay [DisplayDevice δ] (m : Machine δ σ) : Except Error Unit × Machine δ σ :=
  match m.display with
  | none => (.ok (), m)
  | some d =>
    let (result, d) := DisplayDevice.clear d
    (result.mapError .io,
      { m with display := some d, journal := m.journal.push (.called .clear (succeeded result)) })

/-- Have the display show the picture, if there is one. -/
def renderDisplay [DisplayDevice δ] (m : Machine δ σ) : Except Error Unit × Machine δ σ :=
  match m.display with
  | none => (.ok (), m)
  | some d =>
    let pixels := m.cpu.screen.pixels
    let (result, d) := DisplayDevice.render d pixels
    (result.mapError .io,
      { m with
        display := some d
        journal := m.journal.push (.called (.render pixels) (succeeded result)) })

/-- Have the sound device ring. -/
def ring [SoundDevice σ] (m : Machine δ σ) : Except Error Unit × Machine δ σ :=
  let (result, s) := SoundDevice.beep m.sound
  (result.mapError .audio,
    { m with sound := s, journal := m.journal.push (.called .beep (succeeded result)) })

/-- Tell the sound device that a frame is over. -/
def updateSound [SoundDevice σ] (m : Machine δ σ) : Except Error Unit × Machine δ σ :=
  let (result, s) := SoundDevice.update m.sound
  (result.mapError .audio,
    { m with sound := s, journal := m.journal.push (.called .update (succeeded result)) })

/-! ### Frames -/

/-- Execute one instruction, and do what it means to the display and the run state. -/
def cycle [DisplayDevice δ] (m : Machine δ σ) : Except Error Unit × Machine δ σ :=
  let word := m.cpu.currentWord
  let stepped := m.cpu.step
  let m := { m with cpu := stepped.cpu }.noteAll stepped.log
  match stepped.outcome with
  | .ok .next => (.ok (), m)
  | .ok .cleared => m.clearDisplay
  | .ok (.awaitKey register) =>
    (.ok (), { m with state := .waitingForKey register }.note (.waiting register))
  | .error e =>
    if e.isFatal then (.error e, { m with state := .halted word }.note (.halting e))
    else (.error e, m)

/-- Execute up to `n` instructions, while the machine runs and nothing goes wrong. -/
def batch [DisplayDevice δ] : Nat → Machine δ σ → Except Error Unit × Machine δ σ
  | 0, m => (.ok (), m)
  | n + 1, m =>
    if m.isRunning then
      match m.cycle with
      | (.ok (), m) => batch n m
      | (.error e, m) => (.error e, m)
    else (.ok (), m)

/-- Show the picture if something was drawn since it was last asked for. -/
def present [DisplayDevice δ] (m : Machine δ σ) : Except Error Unit × Machine δ σ :=
  let (pending, cpu) := m.cpu.takeDrawPending
  let m := { m with cpu := cpu }
  if pending then m.renderDisplay else (.ok (), m)

/-- Whether the timers step in this frame. -/
def timersDue (m : Machine δ σ) : Bool :=
  m.frame % max m.config.timerDivider 1 == 0

/-- Step the timers if they are due, and ring if the sound timer says so. -/
def decay [SoundDevice σ] (m : Machine δ σ) : Except Error Unit × Machine δ σ :=
  if m.timersDue then
    let (rings, cpu) := m.cpu.tickTimers
    let m := { m with cpu := cpu }
    if rings then m.ring else (.ok (), m)
  else (.ok (), m)

/-- Finish a frame: step the timers, count the frame and tell the sound device. -/
def finishFrame [SoundDevice σ] (m : Machine δ σ) : Except Error Unit × Machine δ σ :=
  match m.decay with
  | (.error e, m) => (.error e, m)
  | (.ok (), m) => { m with frame := m.frame + 1 }.updateSound

/-- A frame.  What was drawn before a fault is still shown; a failure to show it comes first. -/
def tick [DisplayDevice δ] [SoundDevice σ] (m : Machine δ σ) : Except Error Unit × Machine δ σ :=
  let (executed, m) := m.batch m.config.cyclesPerFrame
  let (shown, m) := m.present
  match shown, executed with
  | .error e, _ => (.error e, m)
  | .ok (), .error e => (.error e, m)
  | .ok (), .ok () => m.finishFrame

/-! ### Laws -/

/-- A machine that is not running executes nothing. -/
theorem batch_of_not_running [DisplayDevice δ] {m : Machine δ σ} (h : m.isRunning = false)
    (n : Nat) : m.batch n = (.ok (), m) := by
  cases n with
  | zero => rfl
  | succ n => simp [batch, h]

/-- Stopping a machine that is not running changes nothing. -/
theorem stop_of_ne_running {m : Machine δ σ} (h : m.isRunning = false) : m.stop = m := by
  simp [stop, h]

end Machine

end Chip8
