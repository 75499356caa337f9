/-
**A machine that is up has a display.**

A key press that ends a wait goes a roundabout way: the machine is stopped and then started again,
and starting fails if there is no display.  Were there a machine that waits for a key and has no
display, the press would be swallowed and the wait would be lost with it.  There is none.  A display
is needed to start, nothing takes it away again, and a machine leaves the stopped state in no other
way than by being started.

So a key press never fails, it ends every wait, and no frame of a run is given up because of one.
This holds in all states that can be reached, the processor being changed from outside at will, and
in all states during a run.

* `Chip8.RunState.Interrupted` — the states that instructions leave a running machine in;
* `Chip8.Machine.tick_state` — what a frame does to the run state;
* `Chip8.Machine.start_state`, `Chip8.Machine.setKey_of_waiting` — starting, and pressing a key with
  a display;
* `Chip8.Machine.Ready` — a machine that is up has a display, and a wait is for a register that
  exists;
* `Chip8.Machine.Ready.resumes` — a key press ends its wait;
* `Chip8.Machine.Ready.act` — every action keeps it so;
* `Chip8.Machine.setKey_succeeds` — **a key press never fails, and ends every wait**.
-/
import Chip8.Device.Clock
import Chip8.Device.Display
import Chip8.Device.Keys
import Chip8.Device.Sound
import Chip8.Proofs.WellFormed

set_option relaxedAutoImplicit false
set_option autoImplicit false

namespace Chip8

open Instruction (IsCall returnWord)

/-- The states that instructions leave a running machine in: it waits for a key, or a call or a
return has halted it. -/
inductive RunState.Interrupted : RunState → Prop where
  | waits {register : Nat} (h : register < 16) : Interrupted (.waitingForKey register)
  | halts {word : UInt16} (h : IsCall word ∨ word = returnWord) : Interrupted (.halted word)

namespace Machine

variable {δ σ : Type}

theorem isRunning_iff {m : Machine δ σ} : m.isRunning = true ↔ m.state = .running := by
  simp [isRunning]

/-! ### What a frame does to the run state -/

theorem cycle_state [DisplayDevice δ] (m : Machine δ σ) :
    m.cycle.2.state = m.state ∨ m.cycle.2.state.Interrupted := by
  rcases hout : m.cpu.step.outcome with e | flow
  · rw [cycle_of_error hout]
    exact .inr (.halts (Cpu.movesStack_of_step hout))
  · cases flow with
    | next =>
        rw [cycle_of_next hout]
        exact .inl rfl
    | cleared =>
        -- the display may fail to be cleared, but that stops nothing
        rw [cycle_of_cleared hout]
        exact .inl m.executed.clearDisplay_asked.state
    | awaitKey register =>
        rw [cycle_of_awaitKey hout]
        exact .inr (.waits (Cpu.register_lt_of_step hout))

/-- A frame leaves the run state alone unless an instruction interrupts a running machine. -/
theorem tick_state [DisplayDevice δ] [SoundDevice σ] (m : Machine δ σ) :
    m.tick.2.state = m.state ∨ m.state = .running ∧ m.tick.2.state.Interrupted := by
  refine tick_keeps (P := fun m' => m'.state = m.state ∨ m.state = .running ∧ m'.state.Interrupted)
    ?_ ?_ ?_ (.inl rfl)
  · intro m' hrun hm'
    have hrunning := isRunning_iff.1 hrun
    rcases hm' with hsame | ⟨-, hinterrupted⟩
    · rcases m'.cycle_state with hstays | hends
      · exact .inl (hstays.trans hsame)
      · exact .inr ⟨hsame.symm.trans hrunning, hends⟩
    · -- once interrupted, the machine does not run
      rw [hrunning] at hinterrupted
      cases hinterrupted
  · intro m' hm'
    obtain ⟨_, hasked, -⟩ := m'.present_spec
    rw [hasked.state]
    exact hm'
  · intro m' hm'
    obtain ⟨-, hstate, -⟩ := m'.finishFrame_spec
    rw [hstate]
    exact hm'

/-! ### Starting, stopping and key presses -/

theorem start_display (m : Machine δ σ) : m.start.2.display = m.display := by
  unfold start
  split <;> rfl

theorem start_cpu (m : Machine δ σ) : m.start.2.cpu = m.cpu := by
  unfold start
  split <;> rfl

theorem start_of_none {m : Machine δ σ} (h : m.display = none) :
    m.start = (.error .noDisplay, m) := by
  simp [start, h]

/-- With a display, a machine that is not parked runs when it is started. -/
theorem start_of_isSome {m : Machine δ σ} (hd : m.display.isSome = true)
    (hstate : m.state = .stopped ∨ m.state = .running) :
    m.start.1 = .ok () ∧ m.start.2.state = .running ∧ m.start.2.cpu = m.cpu := by
  obtain ⟨d, hd⟩ := Option.isSome_iff_exists.1 hd
  rcases hstate with hstate | hstate
  · simp [start, hd, hstate, note]
  · simp [start, hd, hstate, note]

/-- Starting a machine that waits for a key changes nothing. -/
theorem start_of_waiting {m : Machine δ σ} {register : Nat} (hd : m.display.isSome = true)
    (hstate : m.state = .waitingForKey register) : m.start = (.ok (), m) := by
  obtain ⟨d, hd⟩ := Option.isSome_iff_exists.1 hd
  simp [start, hd, hstate]

/-- A machine that is halted refuses to start. -/
theorem start_of_halted {m : Machine δ σ} {word : UInt16} (hd : m.display.isSome = true)
    (hstate : m.state = .halted word) : m.start = (.error (.halted word), m) := by
  obtain ⟨d, hd⟩ := Option.isSome_iff_exists.1 hd
  simp [start, hd, hstate]

/-- Starting lets a stopped machine with a display run, and has no other effect on the run state. -/
theorem start_state (m : Machine δ σ) :
    m.start.2.state = m.state ∨
      m.display.isSome = true ∧ m.state = .stopped ∧ m.start.2.state = .running := by
  cases hd : m.display with
  | none => exact .inl (by rw [start_of_none hd])
  | some d =>
      have hattached : m.display.isSome = true := by rw [hd]; rfl
      cases hstate : m.state with
      | stopped =>
          obtain ⟨-, hrunning, -⟩ := start_of_isSome hattached (.inl hstate)
          exact .inr ⟨rfl, rfl, hrunning⟩
      | running =>
          obtain ⟨-, hrunning, -⟩ := start_of_isSome hattached (.inr hstate)
          exact .inl hrunning
      | waitingForKey register => exact .inl (by rw [start_of_waiting hattached hstate, hstate])
      | halted word => exact .inl (by rw [start_of_halted hattached hstate, hstate])

theorem stop_of_running {m : Machine δ σ} (h : m.isRunning = true) : m.stop.state = .stopped := by
  simp [stop, h, note]

/-- With a display, a key press ends a wait and goes to the register. -/
theorem setKey_of_waiting {m : Machine δ σ} {register : Nat} (hd : m.display.isSome = true)
    (hstate : m.state = .waitingForKey register) (key : UInt8) :
    (m.setKey key).1 = .ok () ∧ (m.setKey key).2.state = .running ∧
      (m.setKey key).2.display = m.display ∧
      (m.setKey key).2.cpu = { m.cpu with registers := m.cpu.registers.set register key } := by
  have hset : m.setKey key =
      (({ m with
        cpu := { m.cpu with registers := m.cpu.registers.set register key }
        state := .stopped }).note (.resuming key register)).start := by
    simp only [setKey, hstate]
  rw [hset]
  obtain ⟨hok, hrunning, hcpu⟩ := start_of_isSome (m := ({ m with
    cpu := { m.cpu with registers := m.cpu.registers.set register key }
    state := .stopped }).note (.resuming key register)) hd (.inl rfl)
  exact ⟨hok, hrunning, start_display _, hcpu⟩

/-- Without a wait, a key press puts the key down. -/
theorem setKey_of_ne_waiting {m : Machine δ σ} (h : ∀ register, m.state ≠ .waitingForKey register)
    (key : UInt8) :
    m.setKey key = (.ok (), { m with cpu := { m.cpu with keypad := m.cpu.keypad.press key } }) := by
  cases hstate : m.state with
  | waitingForKey register => exact absurd hstate (h register)
  | stopped | running | halted word => simp only [setKey, hstate]

/-! ### Up only with a display -/

/-- A machine that is up has a display, and a wait is for a register that exists. -/
structure Ready (m : Machine δ σ) : Prop where
  attached : m.state ≠ .stopped → m.display.isSome = true
  register_lt : ∀ register, m.state = .waitingForKey register → register < 16

namespace Ready

theorem of_stopped {m : Machine δ σ} (h : m.state = .stopped) : m.Ready := by
  refine ⟨fun hne => absurd h hne, fun register hwaiting => ?_⟩
  rw [h] at hwaiting
  cases hwaiting

theorem of_same {m m' : Machine δ σ} (h : m.Ready) (hstate : m'.state = m.state)
    (hdisplay : m'.display.isSome = m.display.isSome) : m'.Ready := by
  refine ⟨?_, ?_⟩
  · rw [hstate, hdisplay]
    exact h.attached
  · rw [hstate]
    exact h.register_lt

theorem of_running {m : Machine δ σ} (hstate : m.state = .running)
    (hdisplay : m.display.isSome = true) : m.Ready := by
  refine ⟨fun _ => hdisplay, fun register hwaiting => ?_⟩
  rw [hstate] at hwaiting
  cases hwaiting

theorem attached_of_waiting {m : Machine δ σ} {register : Nat} (h : m.Ready)
    (hstate : m.state = .waitingForKey register) : m.display.isSome = true :=
  h.attached (by simp [hstate])

/-- A key press lets a machine that waits for a key run on with the key in its register. -/
theorem resumes {m : Machine δ σ} {register : Nat} (h : m.Ready)
    (hstate : m.state = .waitingForKey register) (key : UInt8) :
    (m.setKey key).2.state = .running ∧
      (m.setKey key).2.cpu.registers.get register = key ∧
      (m.setKey key).2.cpu = { m.cpu with registers := m.cpu.registers.set register key } := by
  obtain ⟨-, hrunning, -, hcpu⟩ := setKey_of_waiting (h.attached_of_waiting hstate) hstate key
  refine ⟨hrunning, ?_, hcpu⟩
  rw [hcpu]
  exact Registers.get_set_self _ (h.register_lt register hstate) key

theorem start {m : Machine δ σ} (h : m.Ready) : m.start.2.Ready := by
  rcases m.start_state with hsame | ⟨hattached, -, hrunning⟩
  · exact h.of_same hsame (by rw [m.start_display])
  · exact of_running hrunning (m.start_display ▸ hattached)

theorem stop {m : Machine δ σ} (h : m.Ready) : m.stop.Ready := by
  by_cases hrun : m.isRunning = true
  · exact of_stopped (stop_of_running hrun)
  · rw [stop_of_ne_running (Bool.eq_false_iff.2 hrun)]
    exact h

/-- A key press never fails: if it has a wait to end, there is a display to start with. -/
theorem setKey_ok {m : Machine δ σ} (h : m.Ready) (key : UInt8) : (m.setKey key).1 = .ok () := by
  cases hstate : m.state with
  | waitingForKey register =>
      have hattached := h.attached_of_waiting hstate
      exact (setKey_of_waiting hattached hstate key).1
  | stopped | running | halted word =>
      rw [setKey_of_ne_waiting (by simp [hstate])]

theorem setKey {m : Machine δ σ} (h : m.Ready) (key : UInt8) : (m.setKey key).2.Ready := by
  cases hstate : m.state with
  | waitingForKey register =>
      have hattached := h.attached_of_waiting hstate
      obtain ⟨-, hrunning, hdisplay, -⟩ := setKey_of_waiting hattached hstate key
      exact of_running hrunning (hdisplay ▸ hattached)
  | stopped | running | halted word =>
      rw [setKey_of_ne_waiting (by simp [hstate])]
      exact h.of_same rfl rfl

theorem tick [DisplayDevice δ] [SoundDevice σ] {m : Machine δ σ} (h : m.Ready) :
    m.tick.2.Ready := by
  rcases m.tick_state with hsame | ⟨hrunning, hinterrupted⟩
  · exact h.of_same hsame m.tick_isSome
  · refine ⟨fun _ => ?_, fun register hwaiting => ?_⟩
    · rw [m.tick_isSome]
      exact h.attached (by simp [hrunning])
    · rw [hwaiting] at hinterrupted
      cases hinterrupted with
      | waits hlt => exact hlt

/-- **Every action keeps a machine ready.** -/
theorem act [DisplayDevice δ] [SoundDevice σ] {m : Machine δ σ} (h : m.Ready) (action : Action δ) :
    (m.act action).Ready := by
  cases action with
  | attach display => exact ⟨fun _ => rfl, h.register_lt⟩
  | start => exact h.start
  | stop => exact h.stop
  | reset => exact of_stopped rfl
  | load program => exact h.of_same rfl rfl
  | loadFrom source => exact h.of_same rfl rfl
  | setKey key => exact h.setKey key
  | unsetKey key => exact h.of_same rfl rfl
  | tick => exact h.tick
  | note record => exact h.of_same rfl rfl
  | alter cpu => exact h.of_same rfl rfl

theorem actAll [DisplayDevice δ] [SoundDevice σ] {m : Machine δ σ} (h : m.Ready)
    (actions : List (Action δ)) : (m.actAll actions).Ready :=
  actAll_keeps (fun action _ _ hm => hm.act action) h

/-- Events are handed to a ready machine without a failure. -/
theorem handle {m : Machine δ σ} (h : m.Ready) (frames : Nat) (events : List KeyEvent) (e : Error) :
    (Console.handle frames events m).1 ≠ .failed e := by
  induction events generalizing m with
  | nil => simp [Console.handle]
  | cons event events ih =>
      cases event with
      | pressed key =>
          have hok := h.setKey_ok key
          have hnext := h.setKey key
          rcases hset : m.setKey key with ⟨e' | ⟨⟩, m₁⟩
          · rw [hset] at hok
            cases hok
          · rw [hset] at hnext
            simp only [Console.handle, hset]
            exact ih hnext
      | released key => exact ih (h.of_same rfl rfl)
      | quit => simp [Console.handle]

end Ready

theorem ready_new (sound : σ) (config : Config) (entropy : UInt64) :
    (new sound config entropy : Machine δ σ).Ready :=
  .of_stopped rfl

section Reached

variable {κ ι : Type} [DisplayDevice δ] [SoundDevice σ] [FrameClock κ] [KeyDevice ι]

/-- **A key press never fails, and ends every wait.**  Whatever is done with a new machine, runs
included, is a list of actions.  After any such list, a machine that is not stopped has a display.  So
a key press succeeds, it lets a machine that waits for a key run on with the key in its register, and
handing events to the machine does not fail. -/
theorem setKey_succeeds (sound : σ) (config : Config) (entropy : UInt64) :
    let start : Machine δ σ := new sound config entropy
    (∀ interventions : List (Intervention δ κ ι),
      start.interveneAll interventions = start.actAll (start.trace interventions)) ∧
      ∀ actions : List (Action δ),
        let m := start.actAll actions
        (m.state ≠ .stopped → m.display.isSome = true) ∧
        (∀ key, (m.setKey key).1 = .ok ()) ∧
        (∀ key register, m.state = .waitingForKey register →
          (m.setKey key).2.state = .running ∧
            (m.setKey key).2.cpu.registers.get register = key) ∧
        ∀ frames events e, (Console.handle frames events m).1 ≠ .failed e := by
  refine ⟨interveneAll_eq_actAll _, fun actions => ?_⟩
  have hready := (ready_new (δ := δ) sound config entropy).actAll actions
  refine ⟨hready.attached, hready.setKey_ok, ?_, hready.handle⟩
  intro key register hstate
  obtain ⟨hrunning, hregister, -⟩ := hready.resumes hstate key
  exact ⟨hrunning, hregister⟩

end Reached

/-- A program that waits for a key is loaded and run for a frame. -/
def intoWait : List (Action PictureLog) :=
  [.attach .new, .load [0xf2, 0x0a], .start, .tick]

/-- The machine waits then, and a key press lets it run on. -/
theorem setKey_succeeds_intoWait :
    let m := (new Mute.mute {} 0).actAll intoWait
    m.state = .waitingForKey 2 ∧ (m.setKey 7).1 = .ok () ∧ (m.setKey 7).2.state = .running ∧
      (m.setKey 7).2.cpu.registers.get 2 = 7 := by
  have hstate : ((new Mute.mute {} 0).actAll intoWait).state = .waitingForKey 2 := by
    decide +kernel
  obtain ⟨-, hok, hresumes, -⟩ :=
    (setKey_succeeds (κ := FrameCount) (ι := ScriptedKeys) Mute.mute {} 0).2 intoWait
  exact ⟨hstate, hok 7, hresumes 7 2 hstate⟩

end Machine

end Chip8
