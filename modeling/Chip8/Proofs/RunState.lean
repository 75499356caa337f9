/-
**The run state.**

A machine is stopped, runs, waits for a key or is halted, and there are few ways from one to the
other.  It is started and stopped, a frame makes it wait or halts it, a key press ends a wait, and a
reset stops it whatever it was up to.  Nothing else changes the run state, however the devices fail
and however a run ends; what a run does is a list of such steps.

A machine that waits or is halted is *parked*.  It stays so until a key is pressed or until a reset,
and while it does, its program stands still: registers, stack, picture and random bytes keep their
values, and memory changes by loading only.  A halted machine says so to everyone who starts it, and
the word that halted it is a call or a return.

* `Chip8.Transition` — how an action may change the run state;
* `Chip8.Machine.Ready.act_state`, `Chip8.Machine.Ready.state_of_transition` — an action changes the
  run state in these ways only, and does so where it can;
* `Chip8.RunState.IsParked`, `Chip8.Intervention.Leaves` — the states of rest, and what does not end
  them;
* `Chip8.Cpu.StandsStill` — what a program has computed is untouched;
* `Chip8.Machine.Parked.intervene`, `Chip8.Machine.Parked.interveneAll` — a parked machine stays
  parked, and its program stands still;
* `Chip8.Machine.runState_of_trace` — **the run state changes in these ways only**.
-/
import Chip8.Proofs.Attached

set_option relaxedAutoImplicit false
set_option autoImplicit false

namespace Chip8

open Instruction (IsCall returnWord)

variable {δ σ κ ι : Type}

/-! ### The ways from one state to another -/

/-- How an action may change what a machine with or without a display is up to. -/
inductive Transition (attached : Bool) : Action δ → RunState → RunState → Prop where
  | starts (h : attached = true) : Transition attached .start .stopped .running
  | stops : Transition attached .stop .running .stopped
  | waits {register : Nat} (h : register < 16) :
    Transition attached .tick .running (.waitingForKey register)
  | halts {word : UInt16} (h : IsCall word ∨ word = returnWord) :
    Transition attached .tick .running (.halted word)
  | resumes {register : Nat} (key : UInt8) :
    Transition attached (.setKey key) (.waitingForKey register) .running
  | resets (state : RunState) : Transition attached .reset state .stopped

theorem RunState.Interrupted.transition {state : RunState} (h : state.Interrupted)
    (attached : Bool) : Transition (δ := δ) attached .tick .running state := by
  cases h with
  | waits h => exact .waits h
  | halts h => exact .halts h

namespace Machine

variable [DisplayDevice δ] [SoundDevice σ]

/-- **The run state changes by a transition only.** -/
theorem Ready.act_state {m : Machine δ σ} (h : m.Ready) (action : Action δ) :
    (m.act action).state = m.state ∨
      Transition m.display.isSome action m.state (m.act action).state := by
  cases action with
  | start =>
      rcases m.start_state with hsame | ⟨hattached, hstopped, hrunning⟩
      · exact .inl hsame
      · rw [Machine.act, hstopped, hrunning]
        exact .inr (.starts hattached)
  | stop =>
      by_cases hrun : m.isRunning = true
      · rw [Machine.act, stop_of_running hrun, isRunning_iff.1 hrun]
        exact .inr .stops
      · rw [Machine.act, stop_of_ne_running (Bool.eq_false_iff.2 hrun)]
        exact .inl rfl
  | reset => exact .inr (.resets m.state)
  | setKey key =>
      cases hstate : m.state with
      | waitingForKey register =>
          rw [Machine.act, (h.resumes hstate key).1]
          exact .inr (.resumes key)
      | stopped | running | halted word =>
          left
          rw [Machine.act, setKey_of_ne_waiting (by simp [hstate])]
          exact hstate
  | tick =>
      rcases m.tick_state with hsame | ⟨hrunning, hinterrupted⟩
      · exact .inl hsame
      · rw [hrunning]
        exact .inr (hinterrupted.transition _)
  | attach display | load program | loadFrom source | unsetKey key | note record | alter cpu =>
      exact .inl rfl

/-- Where an action other than a frame has a transition, it makes it. -/
theorem Ready.state_of_transition {m : Machine δ σ} (h : m.Ready) {action : Action δ}
    {state : RunState} (htransition : Transition m.display.isSome action m.state state)
    (htick : action ≠ .tick) : (m.act action).state = state := by
  generalize hfrom : m.state = before at htransition
  cases htransition with
  | starts hattached => exact (start_of_isSome hattached (.inl hfrom)).2.1
  | stops => exact stop_of_running (isRunning_iff.2 hfrom)
  | waits => exact absurd rfl htick
  | halts => exact absurd rfl htick
  | resumes key => exact (h.resumes hfrom key).1
  | resets => rfl

/-- Only a call or a return halts a machine. -/
theorem movesStack_of_halted {m : Machine δ σ} (h : m.Ready)
    (hword : ∀ word, m.state = .halted word → IsCall word ∨ word = returnWord)
    (actions : List (Action δ)) :
    ∀ word, (m.actAll actions).state = .halted word → IsCall word ∨ word = returnWord := by
  refine (actAll_keeps (P := fun m => m.Ready ∧
    ∀ word, m.state = .halted word → IsCall word ∨ word = returnWord) ?_ ⟨h, hword⟩).2
  rintro action - m' ⟨hready, hword'⟩
  refine ⟨hready.act action, fun word hhalted => ?_⟩
  rcases hready.act_state action with hsame | htransition
  · exact hword' word (hsame.symm.trans hhalted)
  · generalize m'.state = before at htransition
    rw [hhalted] at htransition
    cases htransition with
    | halts hmoves => exact hmoves

end Machine

/-! ### At rest -/

/-- Waiting for a key, or halted. -/
def RunState.IsParked : RunState → Prop
  | .waitingForKey _ | .halted _ => True
  | .stopped | .running => False

namespace Intervention

/-- What leaves a parked machine in its state.  A reset does not; a wait is also ended by a key
press, which a run may bring along. -/
def Leaves : RunState → Intervention δ κ ι → Prop
  | _, .operation .reset => False
  | .waitingForKey _, .operation (.setKey _) => False
  | .waitingForKey _, .operation (.run _ _ _) => False
  | _, _ => True

/-- An operation, and no change of the processor from outside. -/
def IsOperation : Intervention δ κ ι → Prop
  | .operation _ => True
  | .alter _ => False

/-- Memory after what an intervention loads into it, if it loads anything. -/
def loaded (memory : Memory) : Intervention δ κ ι → Memory
  | .operation (.load program) => memory.load program
  | .operation (.loadFrom source) => (memory.loadFrom source).2
  | _ => memory

end Intervention

/-- What a program has computed is untouched: registers and stack, the picture, the random bytes. -/
structure Cpu.StandsStill (c d : Cpu) : Prop where
  registers : d.registers = c.registers
  screen : d.screen = c.screen
  random : d.random = c.random

theorem Cpu.StandsStill.refl (c : Cpu) : StandsStill c c :=
  ⟨rfl, rfl, rfl⟩

theorem Cpu.StandsStill.trans {c₁ c₂ c₃ : Cpu} (h : StandsStill c₁ c₂) (h' : StandsStill c₂ c₃) :
    StandsStill c₁ c₃ :=
  ⟨h'.registers.trans h.registers, h'.screen.trans h.screen, h'.random.trans h.random⟩

namespace Machine

/-- A machine with a display, in the given state. -/
structure Parked (state : RunState) (m : Machine δ σ) : Prop where
  state_eq : m.state = state
  attached : m.display.isSome = true

namespace Parked

variable {state : RunState} {m : Machine δ σ}

theorem isRunning_eq (h : Parked state m) (hparked : state.IsParked) : m.isRunning = false := by
  cases hrun : m.isRunning with
  | false => rfl
  | true =>
      rw [← h.state_eq, isRunning_iff.1 hrun] at hparked
      exact hparked.elim

/-- Starting a parked machine changes nothing. -/
theorem start_eq (h : Parked state m) (hparked : state.IsParked) : m.start.2 = m := by
  cases state with
  | stopped | running => exact hparked.elim
  | waitingForKey register => rw [start_of_waiting h.attached h.state_eq]
  | halted word => rw [start_of_halted h.attached h.state_eq]

section

variable [DisplayDevice δ] [SoundDevice σ] [FrameClock κ] [KeyDevice ι]

/-- A machine that is halted is not run. -/
theorem run_eq {word : UInt16} (h : Parked (.halted word) m) (limit : Option Nat) (clock : κ)
    (keys : ι) : Console.run limit ⟨m, clock, keys⟩ = (.failed (.halted word), ⟨m, clock, keys⟩) := by
  have hstart := start_of_halted h.attached h.state_eq
  rw [Console.run_of_start_error (congrArg Prod.fst hstart), hstart]

/-- **A parked machine stays parked, and its program stands still.**  Memory is changed by loading
only, unless the processor is changed from outside. -/
theorem intervene (h : Parked state m) (hparked : state.IsParked)
    {intervention : Intervention δ κ ι} (hleaves : intervention.Leaves state) :
    Parked state (m.intervene intervention) ∧
      (intervention.IsOperation →
        m.cpu.StandsStill (m.intervene intervention).cpu ∧
          (m.intervene intervention).cpu.memory = intervention.loaded m.cpu.memory) := by
  cases intervention with
  | alter cpu => exact ⟨⟨h.state_eq, h.attached⟩, False.elim⟩
  | operation operation =>
      cases operation with
      | attach display => exact ⟨⟨h.state_eq, rfl⟩, fun _ => ⟨.refl _, rfl⟩⟩
      | start =>
          have hsame : m.intervene (.operation (.start : Operation δ κ ι)) = m := h.start_eq hparked
          rw [hsame]
          exact ⟨h, fun _ => ⟨.refl _, rfl⟩⟩
      | stop =>
          have hsame : m.intervene (.operation (.stop : Operation δ κ ι)) = m :=
            stop_of_ne_running (h.isRunning_eq hparked)
          rw [hsame]
          exact ⟨h, fun _ => ⟨.refl _, rfl⟩⟩
      | reset => exact hleaves.elim
      | load program => exact ⟨⟨h.state_eq, h.attached⟩, fun _ => ⟨⟨rfl, rfl, rfl⟩, rfl⟩⟩
      | loadFrom source => exact ⟨⟨h.state_eq, h.attached⟩, fun _ => ⟨⟨rfl, rfl, rfl⟩, rfl⟩⟩
      | setKey key =>
          cases state with
          | stopped | running => exact hparked.elim
          | waitingForKey register => exact hleaves.elim
          | halted word =>
              -- only the keypad learns of the key
              have hset : m.intervene (.operation (.setKey key : Operation δ κ ι)) =
                  { m with cpu := { m.cpu with keypad := m.cpu.keypad.press key } } :=
                congrArg Prod.snd (setKey_of_ne_waiting (by simp [h.state_eq]) key)
              rw [hset]
              exact ⟨⟨h.state_eq, h.attached⟩, fun _ => ⟨⟨rfl, rfl, rfl⟩, rfl⟩⟩
      | unsetKey key => exact ⟨⟨h.state_eq, h.attached⟩, fun _ => ⟨⟨rfl, rfl, rfl⟩, rfl⟩⟩
      | tick =>
          obtain ⟨hstate, timers, hcpu⟩ := tick_of_not_running (h.isRunning_eq hparked)
          refine ⟨⟨hstate.trans h.state_eq, m.tick_isSome.trans h.attached⟩, fun _ => ?_⟩
          rw [show m.intervene (.operation (.tick : Operation δ κ ι)) = m.tick.2 from rfl, hcpu]
          exact ⟨⟨rfl, rfl, rfl⟩, rfl⟩
      | run limit clock keys =>
          cases state with
          | stopped | running => exact hparked.elim
          | waitingForKey register => exact hleaves.elim
          | halted word =>
              have hsame : m.intervene (.operation (.run limit clock keys)) = m :=
                congrArg (fun result => result.2.machine) (h.run_eq limit clock keys)
              rw [hsame]
              exact ⟨h, fun _ => ⟨.refl _, rfl⟩⟩

theorem interveneAll (h : Parked state m) (hparked : state.IsParked)
    {interventions : List (Intervention δ κ ι)}
    (hleaves : ∀ intervention ∈ interventions, intervention.Leaves state) :
    Parked state (m.interveneAll interventions) ∧
      ((∀ intervention ∈ interventions, intervention.IsOperation) →
        m.cpu.StandsStill (m.interveneAll interventions).cpu ∧
          (m.interveneAll interventions).cpu.memory =
            interventions.foldl Intervention.loaded m.cpu.memory) := by
  induction interventions generalizing m with
  | nil => exact ⟨h, fun _ => ⟨.refl _, rfl⟩⟩
  | cons intervention interventions ih =>
      obtain ⟨hnext, hfirst⟩ := h.intervene hparked (hleaves _ (List.mem_cons_self ..))
      obtain ⟨hlast, hrest⟩ := ih hnext fun i hi => hleaves i (List.mem_cons_of_mem _ hi)
      refine ⟨hlast, fun hoperations => ?_⟩
      obtain ⟨hstill, hmemory⟩ := hfirst (hoperations _ (List.mem_cons_self ..))
      obtain ⟨hstill', hmemory'⟩ := hrest fun i hi => hoperations i (List.mem_cons_of_mem _ hi)
      refine ⟨hstill.trans hstill', ?_⟩
      rw [List.foldl_cons, ← hmemory]
      exact hmemory'

end

end Parked

section Reached

variable [DisplayDevice δ] [SoundDevice σ] [FrameClock κ] [KeyDevice ι]

/-- **The run state changes in these ways only.**  Whatever is done with a new machine is a list of
actions, runs being taken apart.  After any such list, an action leaves the run state alone or makes a
transition, and it makes one where it can.  If in the end the machine waits for a key, or is halted
by a word, which is a call or a return then, it remains so whatever is done later that leaves such a
machine in its state, its program stands still, and memory is changed by loading only; a halted
machine can neither be started nor run. -/
theorem runState_of_trace (sound : σ) (config : Config) (entropy : UInt64)
    (interventions : List (Intervention δ κ ι)) :
    let start : Machine δ σ := new sound config entropy
    let m := start.interveneAll interventions
    m = start.actAll (start.trace interventions) ∧
      (∀ (before : List (Action δ)) (action : Action δ),
        let now := start.actAll before
        ((now.act action).state = now.state ∨
          Transition now.display.isSome action now.state (now.act action).state) ∧
        ∀ state, action ≠ .tick → Transition now.display.isSome action now.state state →
          (now.act action).state = state) ∧
      (∀ word, m.state = .halted word → IsCall word ∨ word = returnWord) ∧
      ∀ later : List (Intervention δ κ ι), m.state.IsParked →
        (∀ intervention ∈ later, intervention.Leaves m.state) →
        (m.interveneAll later).state = m.state ∧
        ((∀ intervention ∈ later, intervention.IsOperation) →
          m.cpu.StandsStill (m.interveneAll later).cpu ∧
            (m.interveneAll later).cpu.memory = later.foldl Intervention.loaded m.cpu.memory) ∧
        ∀ word, m.state = .halted word →
          (m.interveneAll later).start.1 = .error (.halted word) ∧
            ∀ limit (clock : κ) (keys : ι),
              (Console.run limit ⟨m.interveneAll later, clock, keys⟩).1 =
                .failed (.halted word) := by
  have hnew := ready_new (δ := δ) sound config entropy
  have htrace := interveneAll_eq_actAll (new sound config entropy : Machine δ σ) interventions
  have hready := hnew.actAll ((new sound config entropy : Machine δ σ).trace interventions)
  have hwords := movesStack_of_halted hnew (by simp [new])
    ((new sound config entropy : Machine δ σ).trace interventions)
  rw [← htrace] at hready hwords
  refine ⟨htrace, ?_, hwords, ?_⟩
  · intro before action
    have hbefore := hnew.actAll before
    exact ⟨hbefore.act_state action,
      fun state htick htransition => hbefore.state_of_transition htransition htick⟩
  · intro later hparked hleaves
    have hattached := hready.attached (by
      intro hstopped
      rw [hstopped] at hparked
      exact hparked)
    have hrest : Parked _ (interveneAll (new sound config entropy : Machine δ σ) interventions) :=
      ⟨rfl, hattached⟩
    obtain ⟨hlast, hstill⟩ := hrest.interveneAll hparked hleaves
    refine ⟨hlast.state_eq, hstill, fun word hhalted => ?_⟩
    rw [hhalted] at hlast
    exact ⟨congrArg Prod.fst (start_of_halted hlast.attached hlast.state_eq),
      fun limit clock keys => congrArg Prod.fst (hlast.run_eq limit clock keys)⟩

end Reached

end Machine

end Chip8
