/-
**Nothing goes out of range.**

Checked execution, carried from the processor to the machine: a frame, a key press, a run and every
other operation once more, with every access to an array and every sum checked where the processor
counts on it.  Whatever is done with a new machine, whatever its program does and whatever the
devices fail at, no check ever fails, and the machine is always in a well-formed state.

Main definitions:

* `Chip8.Machine.cycle?`, `Chip8.Machine.tick?`, `Chip8.Machine.setKey?`, `Chip8.Console.run?` — the
  parts, checked;
* `Chip8.Machine.perform?`, `Chip8.Machine.performAll?` — operations, checked.

Main results:

* `Chip8.Machine.perform?_eq`, `Chip8.Machine.performAll?_eq` — in a well-formed state no check
  fails;
* `Chip8.Machine.performAll_safe` — **what can be reached is well-formed, and is reached without
  going out of range**.
-/
import Chip8.Proofs.Checked

set_option relaxedAutoImplicit false
set_option autoImplicit false

namespace Chip8

/-! ### Memory as a whole -/

namespace Cpu

/-- Everything back to its initial state. -/
def reset? (c : Cpu) : Option Cpu := do
  let memory ← { c.memory with cells := Vector.replicate 4096 0 }.writeBytes?
    c.memory.glyphAddr Memory.font
  return ⟨memory, .new, .blank, .new, .new, c.random, false⟩

/-- Put a program into memory. -/
def load? (c : Cpu) (program : List UInt8) : Option Cpu := do
  let memory ← c.memory.writeBytes? c.memory.programAddr program
  return { c with memory := memory }

theorem reset?_eq (c : Cpu) : c.reset? = some c.reset := by
  rw [reset?, Memory.writeBytes?_eq]
  rfl

theorem load?_eq (c : Cpu) (program : List UInt8) : c.load? program = some (c.load program) := by
  rw [load?, Memory.writeBytes?_eq]
  rfl

end Cpu

namespace Machine

variable {δ σ : Type}

/-! ### Frames and keys -/

section Frames

variable [DisplayDevice δ]

/-- What a machine makes of a step from the given word. -/
def conclude (m : Machine δ σ) (word : UInt16) (stepped : Stepped) :
    Except Error Unit × Machine δ σ :=
  let m := { m with cpu := stepped.cpu }.noteAll stepped.log
  match stepped.outcome with
  | .ok .next => (.ok (), m)
  | .ok .cleared => m.clearDisplay
  | .ok (.awaitKey register) =>
    (.ok (), { m with state := .waitingForKey register }.note (.waiting register))
  | .error e =>
    if e.isFatal then (.error e, { m with state := .halted word }.note (.halting e))
    else (.error e, m)

/-- Execute one instruction. -/
def cycle? (m : Machine δ σ) : Option (Except Error Unit × Machine δ σ) := do
  let word ← m.cpu.memory.word? m.cpu.registers.pc
  let stepped ← m.cpu.step?
  return m.conclude word stepped

/-- Execute up to `n` instructions. -/
def batch? : Nat → Machine δ σ → Option (Except Error Unit × Machine δ σ)
  | 0, m => return (.ok (), m)
  | n + 1, m =>
    if m.isRunning then do
      match ← m.cycle? with
      | (.ok (), m) => batch? n m
      | (.error e, m) => return (.error e, m)
    else return (.ok (), m)

/-- A frame. -/
def tick? [SoundDevice σ] (m : Machine δ σ) : Option (Except Error Unit × Machine δ σ) := do
  let (executed, m) ← m.batch? m.config.cyclesPerFrame
  let (shown, m) := m.present
  match shown, executed with
  | .error e, _ => return (.error e, m)
  | .ok (), .error e => return (.error e, m)
  | .ok (), .ok () => return m.finishFrame

theorem cycle?_eq {m : Machine δ σ} (h : m.WellFormed) : m.cycle? = some m.cycle := by
  rw [cycle?, Memory.word?_eq, Cpu.step?_eq h.cpu]
  rfl

theorem batch?_eq (n : Nat) {m : Machine δ σ} (h : m.WellFormed) :
    m.batch? n = some (m.batch n) := by
  induction n generalizing m with
  | zero => rfl
  | succ n ih =>
      unfold batch? batch
      split
      · have hcycle := h.cycle
        rw [cycle?_eq h, Option.bind_eq_bind, Option.bind_some]
        -- after an instruction the machine is well-formed again, so the next one can be checked
        rcases hresult : m.cycle with ⟨e | ⟨⟩, m₁⟩
        · rfl
        · rw [hresult] at hcycle
          exact ih hcycle
      · rfl

theorem tick?_eq [SoundDevice σ] {m : Machine δ σ} (h : m.WellFormed) : m.tick? = some m.tick := by
  rw [tick?, batch?_eq _ h, Option.bind_eq_bind, Option.bind_some, tick]
  rcases m.batch m.config.cyclesPerFrame with ⟨executed, m₁⟩
  rcases hpresent : m₁.present with ⟨shown, m₂⟩
  simp only [hpresent]
  rcases shown with e | ⟨⟩
  · rfl
  · rcases executed with e | ⟨⟩
    · rfl
    · rfl

end Frames

/-- A key is pressed. -/
def setKey? (m : Machine δ σ) (key : UInt8) : Option (Except Error Unit × Machine δ σ) :=
  match m.state with
  | .waitingForKey register => do
    let registers ← m.cpu.registers.set? register key
    let cpu := { m.cpu with registers := registers }
    return ({ m with cpu := cpu, state := .stopped }.note (.resuming key register)).start
  | .stopped | .running | .halted _ => return m.setKey key

theorem setKey?_eq {m : Machine δ σ} (h : m.WellFormed) (key : UInt8) :
    m.setKey? key = some (m.setKey key) := by
  unfold setKey?
  cases hstate : m.state with
  | waitingForKey register =>
      simp [Registers.set?_eq (h.waiting register hstate), setKey, hstate]
  | stopped | running | halted word => rfl

end Machine

/-! ### Runs -/

namespace Console

variable {δ σ κ ι : Type}

/-- Hand events to a machine in order. -/
def handle? (frames : Nat) : List KeyEvent → Machine δ σ → Option (Ending × Machine δ σ)
  | [], m => return (.completed, m)
  | .pressed key :: events, m => do
    match ← m.setKey? key with
    | (.ok (), m) => handle? frames events m
    | (.error e, m) => return (.failed e, m)
  | .released key :: events, m => handle? frames events (m.unsetKey key)
  | .quit :: _, m => return (.quit, (m.note (.quitting frames)).stop)

section

variable [DisplayDevice δ] [SoundDevice σ] [FrameClock κ] [KeyDevice ι]

/-- A frame. -/
def frame? (frames : Nat) (c : Console δ σ κ ι) : Option (Ending × Console δ σ κ ι) := do
  let clock := FrameClock.wait c.clock
  let polled := KeyDevice.poll c.keys
  let m := c.machine.noteAll polled.log
  match polled.events with
  | .error failure => return (.failed (.io failure), ⟨m, clock, polled.device⟩)
  | .ok events =>
    match ← handle? frames events m with
    | (.completed, m) =>
      match ← m.tick? with
      | (.ok (), m) => return (.completed, ⟨m, clock, polled.device⟩)
      | (.error e, m) => return (.failed e, ⟨m, clock, polled.device⟩)
    | (ending, m) => return (ending, ⟨m, clock, polled.device⟩)

/-- Up to `n` frames. -/
def play? (frames : Nat) : Nat → Console δ σ κ ι → Option (Ending × Console δ σ κ ι)
  | 0, c => return (.completed, c)
  | n + 1, c => do
    match ← c.frame? frames with
    | (.completed, c) => play? (frames + 1) n c
    | (ending, c) => return (ending, c)

/-- Start the machine, play up to the limit and stop it. -/
def run? (limit : Option Nat) (c : Console δ σ κ ι) : Option (Ending × Console δ σ κ ι) :=
  match c.machine.start with
  | (.error e, m) => return (.failed e, { c with machine := m })
  | (.ok (), m) => do
    match ← play? 0 (limit.getD frameCeiling) { c with machine := m } with
    | (.completed, c) => return (.completed, { c with machine := c.machine.stop })
    | (ending, c) => return (ending, c)

end

theorem handle?_eq (frames : Nat) (events : List KeyEvent) {m : Machine δ σ} (h : m.WellFormed) :
    handle? frames events m = some (handle frames events m) := by
  induction events generalizing m with
  | nil => rfl
  | cons event events ih =>
      cases event with
      | pressed key =>
          have hset := h.setKey key
          rw [handle?, Machine.setKey?_eq h, Option.bind_eq_bind, Option.bind_some, handle]
          rcases hresult : m.setKey key with ⟨e | ⟨⟩, m₁⟩
          · rfl
          · rw [hresult] at hset
            exact ih hset
      | released key => exact ih (h.unsetKey key)
      | quit => rfl

variable [DisplayDevice δ] [SoundDevice σ] [FrameClock κ] [KeyDevice ι]

theorem frame?_eq (frames : Nat) {c : Console δ σ κ ι} (h : c.machine.WellFormed) :
    c.frame? frames = some (c.frame frames) := by
  have hpolled := Machine.wellFormed_invariant.toKept.noteAll (KeyDevice.poll c.keys).log h
  cases hevents : (KeyDevice.poll c.keys).events with
  | error failure => simp [frame?, frame, hevents]
  | ok events =>
      have hhandled := Machine.wellFormed_invariant.toKept.handle frames events hpolled
      simp only [frame?, frame, hevents, handle?_eq frames events hpolled, Option.bind_eq_bind,
        Option.bind_some]
      rcases hresult : handle frames events
        (c.machine.noteAll (KeyDevice.poll c.keys).log) with ⟨ending, m⟩
      rw [hresult] at hhandled
      cases ending with
      | completed =>
          simp only [Machine.tick?_eq hhandled, Option.bind_some]
          rcases m.tick with ⟨e | ⟨⟩, m₁⟩
          · rfl
          · rfl
      | quit => rfl
      | failed e => rfl

theorem play?_eq (n frames : Nat) {c : Console δ σ κ ι} (h : c.machine.WellFormed) :
    play? frames n c = some (play frames n c) := by
  induction n generalizing frames c with
  | zero => rfl
  | succ n ih =>
      have hframe := Machine.wellFormed_invariant.toKept.frame frames h
      rw [play?, frame?_eq frames h, Option.bind_eq_bind, Option.bind_some, play_succ]
      rcases hresult : c.frame frames with ⟨ending, c₁⟩
      rw [hresult] at hframe
      cases ending with
      | completed => exact ih (frames + 1) hframe
      | quit => rfl
      | failed e => rfl

theorem run?_eq (limit : Option Nat) {c : Console δ σ κ ι} (h : c.machine.WellFormed) :
    run? limit c = some (run limit c) := by
  have hstart := h.start
  unfold run? run
  rcases hresult : c.machine.start with ⟨e | ⟨⟩, m⟩
  · rfl
  · rw [hresult] at hstart
    have hplay : play? 0 (limit.getD frameCeiling) { c with machine := m } =
        some (play 0 (limit.getD frameCeiling) { c with machine := m }) := play?_eq _ 0 hstart
    simp only [hplay, Option.bind_eq_bind, Option.bind_some]
    rcases play 0 (limit.getD frameCeiling) { c with machine := m } with ⟨ending, c₁⟩
    cases ending with
    | completed => rfl
    | quit => rfl
    | failed e => rfl

end Console

/-! ### Operations -/

namespace Machine

variable {δ σ κ ι : Type} [DisplayDevice δ] [SoundDevice σ] [FrameClock κ] [KeyDevice ι]

/-- The machine after an operation, with every access and every sum checked. -/
def perform? (m : Machine δ σ) : Operation δ κ ι → Option (Machine δ σ)
  | .attach display => return m.attach display
  | .start => return m.start.2
  | .stop => return m.stop
  | .reset => do
    let cpu ← m.cpu.reset?
    return { m with cpu := cpu, state := .stopped, frame := 0 }.note .wasReset
  | .load program => do
    let cpu ← m.cpu.load? program
    return { m with cpu := cpu }
  | .loadFrom source =>
    match source.readAll with
    | .ok program => do
      let cpu ← m.cpu.load? program
      return { m with cpu := cpu }
    | .error _ => return m
  | .setKey key => do return (← m.setKey? key).2
  | .unsetKey key => return m.unsetKey key
  | .tick => do return (← m.tick?).2
  | .run limit clock keys => do return (← Console.run? limit ⟨m, clock, keys⟩).2.machine

/-- The machine after operations in a row. -/
def performAll? (m : Machine δ σ) (operations : List (Operation δ κ ι)) : Option (Machine δ σ) :=
  operations.foldlM perform? m

theorem perform?_eq {m : Machine δ σ} (h : m.WellFormed) (operation : Operation δ κ ι) :
    m.perform? operation = some (m.perform operation) := by
  cases operation with
  | attach display | start | stop | unsetKey key => rfl
  | reset => simp [perform?, perform, Cpu.reset?_eq, reset]
  | load program => simp [perform?, perform, Cpu.load?_eq, load]
  | loadFrom source =>
      rcases hread : source.readAll with failure | bytes
      · simp [perform?, perform, hread, loadFrom_of_error hread]
      · simp [perform?, perform, hread, Cpu.load?_eq, loadFrom_of_ok hread, load]
  | setKey key => simp [perform?, perform, setKey?_eq h]
  | tick => simp [perform?, perform, tick?_eq h]
  | run limit clock keys =>
      have hrun : Console.run? limit ⟨m, clock, keys⟩ = some (Console.run limit ⟨m, clock, keys⟩) :=
        Console.run?_eq limit h
      simp [perform?, perform, hrun]

theorem performAll?_eq {m : Machine δ σ} (h : m.WellFormed) (operations : List (Operation δ κ ι)) :
    m.performAll? operations = some (m.performAll operations) := by
  induction operations generalizing m with
  | nil => rfl
  | cons operation operations ih =>
      have hrest := ih (wellFormed_invariant.perform h operation)
      rw [performAll?, List.foldlM_cons, perform?_eq h, Option.bind_eq_bind, Option.bind_some]
      exact hrest

/-- **Nothing goes out of range.**  Whatever is done with a new machine, whatever its program does
and whatever the devices fail at, the stack pointer is within bounds, memory and screen have their
sizes, programs and glyphs are in place, a wait for a key is for a register that exists, and what
was shown to the display has the shape of a picture.  No access and no sum on the way was out of
range. -/
theorem performAll_safe (sound : σ) (config : Config) (entropy : UInt64)
    (operations : List (Operation δ κ ι)) :
    let m := (new sound config entropy : Machine δ σ).performAll operations
    m.cpu.registers.sp ≤ 16 ∧
      m.cpu.memory.cells.toList.length = 4096 ∧
      Screen.IsPicture m.cpu.screen.pixels ∧
      m.cpu.memory.programAddr = 0x200 ∧ m.cpu.memory.glyphAddr = 0 ∧
      (∀ register, m.state = .waitingForKey register → register ≤ 15) ∧
      (∀ pixels, .render pixels ∈ m.calls → Screen.IsPicture pixels) ∧
      (new sound config entropy : Machine δ σ).performAll? operations = some m := by
  have hnew := wellFormed_new (δ := δ) sound config entropy
  have h := wellFormed_invariant.performAll hnew operations
  refine ⟨h.cpu.sp, Vector.length_toList, Screen.isPicture_pixels _, h.cpu.programAddr,
    h.cpu.glyphAddr, ?_, ?_, performAll?_eq hnew operations⟩
  · intro register hstate
    exact Nat.le_of_lt_succ (h.waiting register hstate)
  · intro pixels hshown
    exact h.picture_of_mem_calls hshown

end Machine

end Chip8
