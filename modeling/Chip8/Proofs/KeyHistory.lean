/-
**The history of the keys.**

A key press goes one of two ways.  A machine that waits for a key takes it for its program: the key
goes to the register, the wait is over and the pad is left as it is.  Otherwise the key is put down
on the pad, and the program notices nothing.  There is no third way, so no press is lost and none has
two effects, in whatever order presses, releases, frames, stops and starts come.

So the pad can be told from the history.  A key is down if the last that happened to it on the pad
is that it was pressed, where the presses that ended a wait do not count.  And the waits balance:
each one was entered by an instruction and ended by one press, but for the last one, which may be
pending.

Main definitions:

* `Chip8.Machine.collect` — what is of interest in a history, action by action;
* `Chip8.Machine.padEvents`, `Chip8.Machine.diverted`, `Chip8.Machine.entered` — what happens to the
  pad, the presses that end a wait, and the instructions that begin one;
* `Chip8.Machine.Fresh` — a machine without a history: a new one, or one that was just reset.

Main results:

* `Chip8.Keypad.isPressed_foldl` — on a pad, the last event of a key counts;
* `Chip8.Machine.keypad_act`, `Chip8.Machine.Ready.waits_act` — what an action does to the pad, and
  to the balance of the waits;
* `Chip8.Machine.keypad_actAll`, `Chip8.Machine.waits_actAll` — the same for a history;
* `Chip8.Machine.keys_of_history` — **key presses are neither lost nor duplicated**.
-/
import Mathlib.Data.List.Induction
import Chip8.Proofs.RunState
import Chip8.Proofs.Pacing
import Chip8.Proofs.Fault
import Chip8.Device.Display
import Chip8.Device.Sound
import Chip8.Device.Keys
import Chip8.Device.Clock

set_option relaxedAutoImplicit false
set_option autoImplicit false

namespace Chip8

/-- Whether an instruction begins a wait for a key. -/
def Instruction.awaitsKey : Instruction → Bool
  | awaitKey _ => true
  | _ => false

/-- Whether a machine in this state waits for a key. -/
def RunState.waits : RunState → Bool
  | waitingForKey _ => true
  | stopped | running | halted _ => false

/-- Whether an event is about this key. -/
def KeyEvent.concerns (key : UInt8) : KeyEvent → Bool
  | pressed other | released other => other == key
  | quit => false

/-! ### A pad and what happens to it -/

namespace Keypad

/-- The pad after an event. -/
def heed (k : Keypad) : KeyEvent → Keypad
  | .pressed key => k.press key
  | .released key => k.release key
  | .quit => k

/-- **On a pad, the last event of a key counts.** -/
theorem isPressed_foldl (events : List KeyEvent) (key : UInt8) :
    (events.foldl heed new).isPressed key = true ↔
      (events.filter (KeyEvent.concerns key)).getLast? = some (.pressed key) := by
  induction events using List.reverseRecOn with
  | nil => simp
  | append_singleton events event ih =>
      rw [List.foldl_append, List.filter_append]
      cases event with
      | pressed other =>
          by_cases hkey : other = key
          · subst hkey
            simp [heed, isPressed_press, KeyEvent.concerns]
          · simpa [heed, isPressed_press, KeyEvent.concerns, hkey] using ih
      | released other =>
          by_cases hkey : other = key
          · subst hkey
            simp [heed, isPressed_release, KeyEvent.concerns]
          · simpa [heed, isPressed_release, KeyEvent.concerns, hkey] using ih
      | quit => simpa [heed, KeyEvent.concerns] using ih

end Keypad

/-! ### Instructions and the keys -/

namespace Cpu

theorem skipIf_keypad (c : Cpu) (condition : Bool) : (c.skipIf condition).keypad = c.keypad := by
  cases condition <;> rfl

/-- No instruction touches the pad. -/
theorem keypad_execute (c : Cpu) (instruction : Instruction) :
    (c.execute instruction).2.keypad = c.keypad := by
  cases instruction
  case ret => rcases hpop : c.registers.pop with e | r <;> simp only [execute, hpop]
  case call target => rcases hpush : c.registers.push with e | r <;> simp only [execute, hpush]
  case skipIfByte | skipUnlessByte | skipIfSame | skipUnlessSame | skipIfKey | skipUnlessKey =>
      exact c.skipIf_keypad _
  all_goals rfl

theorem keypad_step (c : Cpu) : c.step.cpu.keypad = c.keypad :=
  keypad_execute { c with registers := c.registers.skip } (.decode c.currentWord)

/-- Whether a step comes to a wait for a key. -/
def awaits : Except Error Flow → Bool
  | .ok (.awaitKey _) => true
  | .ok .next | .ok .cleared | .error _ => false

theorem awaits_execute (c : Cpu) (instruction : Instruction) :
    awaits (c.execute instruction).1 = instruction.awaitsKey := by
  cases instruction
  case ret => rcases hpop : c.registers.pop with e | r <;> simp only [execute, hpop] <;> rfl
  case call target =>
      rcases hpush : c.registers.push with e | r <;> simp only [execute, hpush] <;> rfl
  all_goals rfl

/-- One instruction begins a wait, and it always does. -/
theorem awaits_step (c : Cpu) :
    awaits c.step.outcome = (Instruction.decode c.currentWord).awaitsKey := by
  rw [step_outcome]
  exact awaits_execute _ _

end Cpu

namespace Machine

variable {δ σ : Type}

/-- Stopping does not touch the pad. -/
theorem keypad_stop (m : Machine δ σ) : m.stop.cpu.keypad = m.cpu.keypad := by
  unfold stop
  split <;> rfl

variable [DisplayDevice δ]

/-! ### Frames and the keys -/

/-- An instruction leaves a running machine waiting if it is one that begins a wait. -/
theorem cycle_waits {m : Machine δ σ} (hrun : m.isRunning = true) :
    m.cycle.2.state.waits = (Instruction.decode m.cpu.currentWord).awaitsKey := by
  rw [← Cpu.awaits_step]
  rcases hout : m.cpu.step.outcome with e | flow
  · rw [cycle_of_error hout]
    rfl
  · cases flow with
    | next =>
        rw [cycle_of_next hout]
        exact congrArg RunState.waits (isRunning_iff.1 hrun)
    | cleared =>
        rw [cycle_of_cleared hout, m.executed.clearDisplay_asked.state]
        exact congrArg RunState.waits (isRunning_iff.1 hrun)
    | awaitKey register =>
        rw [cycle_of_awaitKey hout]
        rfl

/-- The instructions among some events that begin a wait. -/
def waitsBegun (events : List Event) : List Instruction :=
  (instructions events).filter Instruction.awaitsKey

/-- A batch enters a wait as often as it begins one, which is once at most. -/
theorem batch_waits (n : Nat) (m : Machine δ σ) :
    (waitsBegun (m.newEvents (m.batch n).2)).length + m.state.waits.toNat =
      (m.batch n).2.state.waits.toNat := by
  have hkept : ∃ executed, Adds m (m.batch n).2 executed [] [] ∧
      (executed.filter Instruction.awaitsKey).length + m.state.waits.toNat =
        (m.batch n).2.state.waits.toNat := by
    refine batch_keeps (P := fun m' => ∃ executed, Adds m m' executed [] [] ∧
      (executed.filter Instruction.awaitsKey).length + m.state.waits.toNat =
        m'.state.waits.toNat) ?_ n ⟨[], .of_eq rfl, Nat.zero_add _⟩
    rintro m' hrun ⟨executed, hadds, hwaits⟩
    -- as long as the machine runs, it has not begun to wait
    have hbefore : m'.state.waits = false := congrArg RunState.waits (isRunning_iff.1 hrun)
    rw [hbefore] at hwaits
    refine ⟨_, hadds.trans m'.cycle_executes.adds, ?_⟩
    rw [cycle_waits hrun, List.filter_append, List.length_append, Nat.add_right_comm, hwaits]
    cases hword : (Instruction.decode m'.cpu.currentWord).awaitsKey <;>
      simp [Cpu.words, hword]
  obtain ⟨executed, hadds, hwaits⟩ := hkept
  rw [waitsBegun, hadds.instructions]
  exact hwaits

variable [SoundDevice σ]

theorem tick_waits (m : Machine δ σ) :
    (waitsBegun (m.newEvents m.tick.2)).length + m.state.waits.toNat =
      m.tick.2.state.waits.toNat := by
  rw [waitsBegun, instructions_tick, tick_state_eq]
  exact m.batch_waits m.config.cyclesPerFrame

/-- A frame does not touch the pad. -/
theorem tick_keypad (m : Machine δ σ) : m.tick.2.cpu.keypad = m.cpu.keypad := by
  refine tick_keeps (P := fun m' => m'.cpu.keypad = m.cpu.keypad) ?_ ?_ ?_ rfl
  · intro m' _ hm'
    rw [m'.cycle_executes.cpu, Cpu.after_succ, Cpu.after_zero, Cpu.keypad_step]
    exact hm'
  · intro m' hm'
    obtain ⟨_, hasked, -⟩ := m'.present_spec
    rw [hasked.cpu]
    exact hm'
  · intro m' hm'
    rw [m'.finishFrame_spec.1, apply_ite Cpu.keypad]
    exact (ite_self _).trans hm'

/-! ### Histories -/

/-- What is of interest in a history, action by action. -/
def collect {α : Type} (pick : Machine δ σ → Action δ → List α) (m : Machine δ σ) :
    List (Action δ) → List α
  | [] => []
  | action :: actions => pick m action ++ collect pick (m.act action) actions

/-- What an action does to the pad: a press that ends a wait does nothing to it. -/
def padEvents (m : Machine δ σ) : Action δ → List KeyEvent
  | .setKey key => if m.state.waits then [] else [.pressed key]
  | .unsetKey key => [.released key]
  | _ => []

/-- The key of a press that ends a wait. -/
def diverted (m : Machine δ σ) : Action δ → List UInt8
  | .setKey key => if m.state.waits then [key] else []
  | _ => []

/-- The instructions of a frame that begin a wait. -/
def entered (m : Machine δ σ) : Action δ → List Instruction
  | .tick => waitsBegun (m.newEvents m.tick.2)
  | _ => []

section

variable {m : Machine δ σ} {action : Action δ} {actions : List (Action δ)}

/-- **What an action does to the pad.** -/
theorem keypad_act (h : m.Ready) (hkeeps : action.KeepsTime) :
    (m.act action).cpu.keypad = (m.padEvents action).foldl Keypad.heed m.cpu.keypad := by
  cases action with
  | setKey key =>
      cases hstate : m.state with
      | waitingForKey register =>
          obtain ⟨-, -, hcpu⟩ := h.resumes hstate key
          simp only [act, padEvents, hstate, hcpu]
          rfl
      | stopped | running | halted word =>
          simp only [act, padEvents, hstate, setKey_of_ne_waiting (m := m) (by simp [hstate])]
          rfl
  | start => exact congrArg Cpu.keypad m.start_cpu
  | stop => exact m.keypad_stop
  | tick => exact m.tick_keypad
  | attach | load | loadFrom | unsetKey | note => rfl
  | reset | alter => exact hkeeps.elim

/-- **The balance of the waits**: what an action adds to it is a wait that it enters, or takes from
it a press that ends one. -/
theorem Ready.waits_act (h : m.Ready) (hkeeps : action.KeepsTime) :
    (m.entered action).length + m.state.waits.toNat =
      (m.diverted action).length + (m.act action).state.waits.toNat := by
  have hsame : (∀ key, action ≠ .setKey key) → action ≠ .tick →
      (m.act action).state.waits = m.state.waits := by
    intro hkey htick
    rcases h.act_state action with hsame | htransition
    · rw [hsame]
    · generalize m.state = before at htransition ⊢
      generalize (m.act action).state = after at htransition ⊢
      cases htransition with
      | starts | stops => rfl
      | waits | halts => exact absurd rfl htick
      | resumes key => exact absurd rfl (hkey key)
      | resets => exact hkeeps.elim
  cases action with
  | setKey key =>
      cases hstate : m.state with
      | waitingForKey register =>
          obtain ⟨hrunning, -⟩ := h.resumes hstate key
          simp only [Machine.act, entered, diverted, hstate, hrunning]
          rfl
      | stopped | running | halted word =>
          simp only [Machine.act, entered, diverted, hstate,
            setKey_of_ne_waiting (m := m) (by simp [hstate])]
          rfl
  | tick => exact m.tick_waits.trans (Nat.zero_add _).symm
  | attach | start | stop | load | loadFrom | unsetKey | note =>
      rw [hsame (by simp) (by simp)]
      rfl
  | reset | alter => exact hkeeps.elim

/-- **The pad is what the history has made of it.** -/
theorem keypad_actAll (h : m.Ready) (hkeeps : ∀ action ∈ actions, action.KeepsTime) :
    (m.actAll actions).cpu.keypad =
      (collect padEvents m actions).foldl Keypad.heed m.cpu.keypad := by
  induction actions generalizing m with
  | nil => rfl
  | cons action actions ih =>
      obtain ⟨hfirst, hrest⟩ := List.forall_mem_cons.1 hkeeps
      rw [actAll_cons, ih (h.act action) hrest, keypad_act h hfirst, collect, List.foldl_append]

/-- **The waits of a history balance**: those that were pending at its beginning or were entered in
it are those that were ended in it or are pending at its end. -/
theorem waits_actAll (h : m.Ready) (hkeeps : ∀ action ∈ actions, action.KeepsTime) :
    (collect entered m actions).length + m.state.waits.toNat =
      (collect diverted m actions).length + (m.actAll actions).state.waits.toNat := by
  induction actions generalizing m with
  | nil => rfl
  | cons action actions ih =>
      obtain ⟨hfirst, hrest⟩ := List.forall_mem_cons.1 hkeeps
      have haction := h.waits_act hfirst
      have hlater := ih (h.act action) hrest
      rw [collect, collect, List.length_append, List.length_append, actAll_cons]
      omega

end

/-- A machine without a history: it is stopped, and no key is down. -/
structure Fresh (m : Machine δ σ) : Prop where
  state : m.state = .stopped
  keypad : m.cpu.keypad = .new

end Machine

/-- An operation other than to reset the machine. -/
def Intervention.KeepsTime {δ κ ι : Type} : Intervention δ κ ι → Prop
  | .operation .reset | .alter _ => False
  | .operation _ => True

theorem Action.OfRun.keepsTime {δ : Type} {action : Action δ} (h : action.OfRun) :
    action.KeepsTime := by
  cases action with
  | attach | reset | load | loadFrom | alter => exact h.elim
  | start | stop | setKey | unsetKey | tick | note => trivial

namespace Machine

variable {δ σ κ ι : Type}

/-- Whatever was done with a machine, a reset makes it fresh. -/
theorem fresh_reset (m : Machine δ σ) : m.reset.Fresh :=
  ⟨rfl, rfl⟩

variable [DisplayDevice δ] [SoundDevice σ] [FrameClock κ] [KeyDevice ι]

theorem keepsTime_of_mem_actions {intervention : Intervention δ κ ι}
    (h : intervention.KeepsTime) (m : Machine δ σ) :
    ∀ action ∈ intervention.actions m, action.KeepsTime := by
  intro action hmem
  cases intervention with
  | alter cpu => exact h.elim
  | operation operation =>
      cases operation with
      | reset => exact h.elim
      | run limit clock keys => exact (Console.ofRun_of_mem_actions action hmem).keepsTime
      | attach | start | stop | load | loadFrom | setKey | unsetKey | tick =>
          rw [List.mem_singleton.1 hmem]
          trivial

/-- **Key presses are neither lost nor duplicated.**  Take a machine that is new or was just reset,
and whatever is done with it by its operations, up to the next reset.  At every point on the way,
also during a run, a key press succeeds.  If the machine waits for a key, it goes to the register,
the machine runs on, and nothing else of the processor changes, the pad included; otherwise the key
is put down, and nothing else changes at all.  A key is down exactly if the last that happened to it,
leaving aside the presses that ended a wait, is that it was pressed.  And as many waits were ended by
a press as were entered by an instruction, but for one if the machine waits. -/
theorem keys_of_history {start : Machine δ σ} (hfresh : start.Fresh)
    {interventions : List (Intervention δ κ ι)}
    (hkeeps : ∀ intervention ∈ interventions, intervention.KeepsTime) :
    start.interveneAll interventions = start.actAll (start.trace interventions) ∧
      ∀ actions, actions <+: start.trace interventions →
        let m := start.actAll actions
        (∀ key, (m.setKey key).1 = .ok ()) ∧
        (∀ key register, m.state = .waitingForKey register →
          (m.setKey key).2.state = .running ∧
            (m.setKey key).2.cpu.registers.get register = key ∧
            (m.setKey key).2.cpu =
              { m.cpu with registers := m.cpu.registers.set register key }) ∧
        (∀ key, (∀ register, m.state ≠ .waitingForKey register) →
          (m.setKey key).2 =
            { m with cpu := { m.cpu with keypad := m.cpu.keypad.press key } }) ∧
        (∀ key, m.cpu.keypad.isPressed key = true ↔
          ((collect padEvents start actions).filter (KeyEvent.concerns key)).getLast? =
            some (.pressed key)) ∧
        (collect entered start actions).length =
          (collect diverted start actions).length + if m.state.waits then 1 else 0 := by
  refine ⟨interveneAll_eq_actAll start interventions, fun actions hbefore => ?_⟩
  have hall : ∀ action ∈ start.trace interventions, action.KeepsTime :=
    forall_mem_trace (fun i hi m => keepsTime_of_mem_actions (hkeeps i hi) m) start
  have hhistory : ∀ action ∈ actions, action.KeepsTime :=
    fun action hmem => hall action (List.IsPrefix.subset hbefore hmem)
  have hstart : start.Ready := .of_stopped hfresh.state
  have hready := hstart.actAll actions
  refine ⟨hready.setKey_ok, fun key _ hstate => hready.resumes hstate key, ?_, ?_, ?_⟩
  · intro key hstate
    rw [setKey_of_ne_waiting hstate]
  · intro key
    rw [keypad_actAll hstart hhistory, hfresh.keypad]
    exact Keypad.isPressed_foldl _ key
  · have hwaits := waits_actAll hstart hhistory
    rw [hfresh.state] at hwaits
    generalize (start.actAll actions).state.waits = pending at hwaits ⊢
    cases pending <;> exact hwaits

/-- A machine that was just reset, with a key down before. -/
def keyThenReset : Machine PictureLog Mute :=
  (((new .mute {} 0).attach .new).setKey 3).2.reset

/-- A key is pressed and, while it is still down, pressed again for a program that waits for one.
Another one is pressed, and the first one is let up. -/
def pressedTwice : List (Action PictureLog) :=
  [.load [0xf1, 0x0a, 0x12, 0x02], .start, .setKey 5, .tick, .setKey 5, .setKey 7, .unsetKey 5]

/-- The same as operations. -/
def pressedTwiceOperations : List (Intervention PictureLog FrameCount ScriptedKeys) :=
  [.operation (.load [0xf1, 0x0a, 0x12, 0x02]), .operation .start, .operation (.setKey 5),
    .operation .tick, .operation (.setKey 5), .operation (.setKey 7), .operation (.unsetKey 5)]

/-- The second press of the key goes to the program.  It does not keep the key down. -/
theorem keys_of_history_pressedTwice :
    (keyThenReset.actAll pressedTwice).cpu.registers.get 1 = 5 ∧
      (keyThenReset.actAll pressedTwice).cpu.keypad.isPressed 7 = true ∧
      (keyThenReset.actAll pressedTwice).cpu.keypad.isPressed 5 = false ∧
      collect diverted keyThenReset pressedTwice = [5] ∧
      (collect entered keyThenReset pressedTwice).length = 1 := by
  have hkeeps : ∀ intervention ∈ pressedTwiceOperations, intervention.KeepsTime := by
    simp [pressedTwiceOperations, Intervention.KeepsTime]
  obtain ⟨hregister, hlast, hlast', hdiverted, hwaits⟩ :
      (keyThenReset.actAll pressedTwice).cpu.registers.get 1 = 5 ∧
        ((collect padEvents keyThenReset pressedTwice).filter (KeyEvent.concerns 7)).getLast? =
          some (.pressed 7) ∧
        ((collect padEvents keyThenReset pressedTwice).filter (KeyEvent.concerns 5)).getLast? =
          some (.released 5) ∧
        collect diverted keyThenReset pressedTwice = [5] ∧
        (keyThenReset.actAll pressedTwice).state.waits = false := by decide +kernel
  have hfresh : keyThenReset.Fresh := fresh_reset _
  have hkeys := (keys_of_history hfresh hkeeps).2 pressedTwice (List.prefix_refl _)
  have hpad := hkeys.2.2.2.1
  have hbalance := hkeys.2.2.2.2
  refine ⟨hregister, (hpad 7).2 hlast, ?_, hdiverted, ?_⟩
  · rw [← Bool.not_eq_true, hpad 5, hlast']
    simp
  · rw [hbalance, hdiverted, hwaits]
    rfl

end Machine

end Chip8
