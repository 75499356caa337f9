/-
**A fault comes out, unless the display is in its way.**

An instruction that faults halts the machine and ends the batch.  What was drawn before it is still
shown, and then the frame ends with the fault, and so does the run that the frame belongs to.  But
showing the picture may fail, too, and a frame ends with one error only.  Then it is the error of
the display, the fault is left out, and no later frame makes up for it, as a halted machine executes
nothing.  The journal notes the fault in either case.

So a fault comes out of a frame and of a run exactly if its frame does not fail to show a picture.
The theory of runs needs that a run ends with the frame that halts its machine: handing events to a
machine does not halt it, and a frame that halts it fails.

Main definitions:

* `Chip8.Cpu.FaultsWithin`, `Chip8.Machine.FaultsWith` — one of some steps fails, and so do the
  instructions of a frame;
* `Chip8.Machine.HaltedBy` — the last of some actions is a frame that halts the machine.

Main results:

* `Chip8.Machine.batch_of_halted`, `Chip8.Machine.tick_of_halted` — a batch and a frame that halt
  the machine;
* `Chip8.Console.haltedBy_frame`, `Chip8.Console.haltedBy_play`, `Chip8.Console.haltedBy_run` — a
  run that ends with a halted machine ends with the frame that halted it;
* `Chip8.Machine.fault_surfaces_iff` — **a fault comes out of its frame and of its run exactly if
  the frame does not fail to show a picture**.
-/
import Chip8.Device.Clock
import Chip8.Device.Display
import Chip8.Device.Keys
import Chip8.Device.Sound
import Chip8.Proofs.Journal
import Mathlib.Control.Monad.Basic

set_option relaxedAutoImplicit false
set_option autoImplicit false

namespace Chip8

/-! ### The instructions -/

namespace Cpu

/-- One of the next `n` steps fails with this error at this word, after steps that succeed. -/
def FaultsWithin (c : Cpu) (n : Nat) (e : Error) (word : UInt16) : Prop :=
  ∃ j < n, (∀ i < j, (c.after i).Proceeds) ∧ (c.after j).step.outcome = .error e ∧
    (c.after j).currentWord = word

namespace FaultsWithin

variable {c : Cpu} {n : Nat} {e : Error} {word : UInt16}

/-- Such a fault halts a machine for good. -/
theorem isFatal (h : c.FaultsWithin n e word) : e.isFatal = true := by
  obtain ⟨j, -, -, hout, -⟩ := h
  exact isFatal_of_step hout

theorem now (hout : c.step.outcome = .error e) : c.FaultsWithin (n + 1) e c.currentWord := by
  refine ⟨0, Nat.succ_pos n, ?_, hout, rfl⟩
  intro i hi
  exact absurd hi (Nat.not_lt_zero i)

theorem later {flow : Flow} (hout : c.step.outcome = .ok flow)
    (h : c.step.cpu.FaultsWithin n e word) : c.FaultsWithin (n + 1) e word := by
  obtain ⟨j, hj, hsteps, hfault, hword⟩ := h
  rw [← after_succ'] at hfault hword
  refine ⟨j + 1, by omega, ?_, hfault, hword⟩
  intro i hi
  cases i with
  | zero => exact ⟨flow, hout⟩
  | succ i =>
      rw [after_succ']
      exact hsteps i (by omega)

end FaultsWithin

end Cpu

namespace Machine

variable {δ σ : Type}

/-- The instructions of the frame end with a fault at this word: the steps before it succeed. -/
def FaultsWith (m : Machine δ σ) (e : Error) (word : UInt16) : Prop :=
  m.cpu.FaultsWithin m.config.cyclesPerFrame e word

section Batch

variable [DisplayDevice δ]

/-- An instruction that succeeds does not halt the machine. -/
theorem cycle_state_of_ok {m : Machine δ σ} {flow : Flow} {word : UInt16}
    (hout : m.cpu.step.outcome = .ok flow) (hbefore : m.state ≠ .halted word) :
    m.cycle.2.state ≠ .halted word := by
  cases flow with
  | next =>
      rw [cycle_of_next hout]
      exact hbefore
  | cleared =>
      rw [cycle_of_cleared hout, m.executed.clearDisplay_asked.state]
      exact hbefore
  | awaitKey register =>
      rw [cycle_of_awaitKey hout]
      simp [note]

/-- An instruction that faults halts the machine at its word, and the journal notes it. -/
theorem cycle_state_of_error {m : Machine δ σ} {e : Error} (hout : m.cpu.step.outcome = .error e) :
    m.cycle.1 = .error e ∧ m.cycle.2.state = .halted m.cpu.currentWord ∧
      .noted (.halting e) ∈ m.newEvents m.cycle.2 := by
  have hjournal : m.cycle.2.journal.toList = m.journal.toList ++
      (m.cpu.step.log.map Event.noted ++ [.noted (.halting e)]) := by
    simp [cycle_of_error hout, note, executed, noteAll]
  refine ⟨by rw [cycle_of_error hout], by rw [cycle_of_error hout]; rfl, ?_⟩
  rw [newEvents_eq hjournal]
  simp

/-- **A batch that halts the machine ends with a fault**, and the journal notes it. -/
theorem batch_of_halted {n : Nat} {m : Machine δ σ} {word : UInt16}
    (hbefore : m.state ≠ .halted word) (hafter : (m.batch n).2.state = .halted word) :
    ∃ e, m.cpu.FaultsWithin n e word ∧ (m.batch n).1 = .error e ∧
      .noted (.halting e) ∈ m.newEvents (m.batch n).2 := by
  induction n generalizing m with
  | zero => exact absurd hafter hbefore
  | succ n ih =>
      by_cases hrun : m.isRunning = true
      · rw [batch, if_pos hrun] at hafter ⊢
        rcases hout : m.cpu.step.outcome with e | flow
        · -- the first instruction faults
          obtain ⟨herror, hstate, hnoted⟩ := cycle_state_of_error hout
          rcases hresult : m.cycle with ⟨_ | ⟨⟩, m₁⟩
          · rw [hresult] at hafter herror hstate hnoted
            cases herror
            rw [hstate, RunState.halted.injEq] at hafter
            exact ⟨e, hafter ▸ .now hout, rfl, hnoted⟩
          · rw [hresult] at herror
            cases herror
        · -- it succeeds, so a later one faults
          have hbefore₁ := cycle_state_of_ok hout hbefore
          have hfirst := m.cycle_executes
          rcases hresult : m.cycle with ⟨e | ⟨⟩, m₁⟩
          · rw [hresult] at hafter hbefore₁
            exact absurd hafter hbefore₁
          · rw [hresult] at hafter hbefore₁ hfirst
            obtain ⟨e, hfault, herror, hnoted⟩ := ih hbefore₁ hafter
            obtain ⟨_, hrest⟩ := batch_executes n m₁
            rw [hfirst.cpu] at hfault
            refine ⟨e, .later hout hfault, herror, ?_⟩
            rw [hfirst.adds.newEvents_append hrest.adds]
            exact List.mem_append_right _ hnoted
      · rw [batch_of_not_running (Bool.eq_false_iff.2 hrun)] at hafter
        exact absurd hafter hbefore

theorem io_of_mapError {e : Error} {result : Except IoFailure Unit}
    (h : result.mapError Error.io = .error e) : ∃ failure, e = .io failure := by
  cases result with
  | error failure =>
      cases h
      exact ⟨failure, rfl⟩
  | ok => cases h

/-- Showing the picture fails only as the display does. -/
theorem io_of_present {m : Machine δ σ} {e : Error} (h : m.present.1 = .error e) :
    ∃ failure, e = .io failure := by
  by_cases hpending : m.cpu.drawPending = true
  · cases hd : m.display with
    | none => simp [present, Cpu.takeDrawPending, hpending, renderDisplay, hd] at h
    | some d =>
        simp only [present, Cpu.takeDrawPending, hpending, if_true, renderDisplay, hd] at h
        exact io_of_mapError h
  · simp [present, Cpu.takeDrawPending, hpending] at h

end Batch

/-! ### A frame -/

section Frame

variable [DisplayDevice δ] [SoundDevice σ]

/-- What follows the instructions leaves the run state alone. -/
theorem tick_state_eq (m : Machine δ σ) :
    m.tick.2.state = (m.batch m.config.cyclesPerFrame).2.state := by
  obtain ⟨_, hasked, -⟩ := (m.batch m.config.cyclesPerFrame).2.present_spec
  refine tick_ends (P := fun m' => m'.state = (m.batch m.config.cyclesPerFrame).2.state)
    hasked.state ?_
  intro m' hm'
  obtain ⟨-, hstate, -⟩ := m'.finishFrame_spec
  rw [hstate]
  exact hm'

/-- A frame that fails to show its picture ends with the failure of the display. -/
theorem FailsToRender.io {m : Machine δ σ} (h : m.FailsToRender) :
    ∃ failure, m.tick.1 = .error (.io failure) := by
  obtain ⟨_, hbatch⟩ := batch_executes m.config.cyclesPerFrame m
  rw [failsToRender_iff hbatch.adds.noRender] at h
  rcases hresult : (m.batch m.config.cyclesPerFrame).2.present with ⟨e | ⟨⟩, m₁⟩
  · obtain ⟨failure, rfl⟩ := io_of_present (congrArg Prod.fst hresult)
    exact ⟨failure, by simp only [tick, hresult]⟩
  · rw [hresult] at h
    exact absurd rfl h

/-- **A frame that halts the machine ends with the fault, unless a picture fails to be shown.**  The
journal notes the fault either way. -/
theorem tick_of_halted {m : Machine δ σ} {word : UInt16} (hbefore : m.state ≠ .halted word)
    (hafter : m.tick.2.state = .halted word) :
    ∃ e, m.FaultsWith e word ∧ .noted (.halting e) ∈ m.newEvents m.tick.2 ∧
      (m.tick.1 = .error e ↔ ¬ m.FailsToRender) := by
  rw [m.tick_state_eq] at hafter
  obtain ⟨e, hfault, herror, hnoted⟩ := batch_of_halted hbefore hafter
  obtain ⟨_, hbatch⟩ := batch_executes m.config.cyclesPerFrame m
  have hrender := failsToRender_iff hbatch.adds.noRender
  have hthrough : ¬ m.GetsThrough := by
    rintro ⟨hok, -⟩
    rw [hok] at herror
    cases herror
  refine ⟨e, hfault, ?_, ?_, ?_⟩
  · have hpresent := (m.batch m.config.cyclesPerFrame).2.present_adds
    rw [tick_of_not_getsThrough hthrough, presented, hbatch.adds.newEvents_append hpresent]
    exact List.mem_append_left _ hnoted
  · -- a failure of the display is not a fault
    intro hresult hfails
    obtain ⟨failure, hio⟩ := hfails.io
    have hfatal := Cpu.FaultsWithin.isFatal hfault
    rw [hresult] at hio
    cases hio
    cases hfatal
  · intro hshown
    rw [hrender, Classical.not_not] at hshown
    simp only [tick, hshown, herror]

theorem exists_error_of_halted {m : Machine δ σ} {word : UInt16} (hbefore : m.state ≠ .halted word)
    (hafter : m.tick.2.state = .halted word) : ∃ e, m.tick.1 = .error e := by
  obtain ⟨e, -, -, hshown⟩ := tick_of_halted hbefore hafter
  by_cases hfails : m.FailsToRender
  · obtain ⟨failure, hio⟩ := hfails.io
    exact ⟨.io failure, hio⟩
  · exact ⟨e, hshown.2 hfails⟩

/-! ### Between frames -/

/-- Nothing but a frame halts a machine. -/
theorem act_ne_halted {m : Machine δ σ} {action : Action δ} {word : UInt16}
    (htick : action ≠ .tick) (hbefore : m.state ≠ .halted word) :
    (m.act action).state ≠ .halted word := by
  have hstart : ∀ m' : Machine δ σ, m'.state ≠ .halted word → m'.start.2.state ≠ .halted word := by
    intro m' hm'
    rcases m'.start_state with hsame | ⟨-, -, hrunning⟩
    · rw [hsame]
      exact hm'
    · simp [hrunning]
  cases action with
  | start => exact hstart m hbefore
  | stop =>
      rw [act, stop]
      split
      · simp [note]
      · exact hbefore
  | reset => simp [act, Machine.reset, note]
  | setKey key =>
      rw [act, setKey]
      split
      · exact hstart _ (by simp [note])
      all_goals exact hbefore
  | tick => exact absurd rfl htick
  | attach | load | loadFrom | unsetKey | note | alter => exact hbefore

theorem actAll_ne_halted {m : Machine δ σ} {actions : List (Action δ)} {word : UInt16}
    (htick : ∀ action ∈ actions, action ≠ .tick) (hbefore : m.state ≠ .halted word) :
    (m.actAll actions).state ≠ .halted word :=
  actAll_keeps (P := fun m => m.state ≠ .halted word)
    (fun action hmem _ hm => act_ne_halted (htick action hmem) hm) hbefore

/-- The last of some actions is a frame that halts the machine, and its error is how they end. -/
def HaltedBy (m : Machine δ σ) (word : UInt16) (actions : List (Action δ)) (ending : Ending) :
    Prop :=
  ∃ before e, actions = before ++ [.tick] ∧ ending = .failed e ∧
    (m.actAll before).state ≠ .halted word ∧ (m.actAll before).tick.1 = .error e ∧
    (m.actAll before).tick.2.state = .halted word

theorem HaltedBy.after {m : Machine δ σ} {word : UInt16} {first actions : List (Action δ)}
    {ending : Ending} (h : HaltedBy (m.actAll first) word actions ending) :
    HaltedBy m word (first ++ actions) ending := by
  obtain ⟨before, e, rfl, hending, hrest⟩ := h
  refine ⟨first ++ before, e, by rw [List.append_assoc], hending, ?_⟩
  rw [actAll_append]
  exact hrest

end Frame

end Machine

/-! ### A run -/

namespace Console

variable {δ σ κ ι : Type}

theorem ne_tick_of_mem_handleActions {frames : Nat} {events : List KeyEvent} {m : Machine δ σ} :
    ∀ action ∈ handleActions frames events m, action ≠ .tick :=
  forall_mem_handleActions ⟨by simp, by simp, by simp, by simp⟩

variable [DisplayDevice δ] [SoundDevice σ]

/-- Handing events to a machine does not halt it. -/
theorem handle_ne_halted (frames : Nat) (events : List KeyEvent) {m : Machine δ σ} {word : UInt16}
    (hbefore : m.state ≠ .halted word) : (handle frames events m).2.state ≠ .halted word := by
  rw [handle_eq_actAll]
  exact Machine.actAll_ne_halted ne_tick_of_mem_handleActions hbefore

variable [FrameClock κ] [KeyDevice ι]

/-- A frame whose events have been handed over is a tick. -/
theorem frame_of_completed {frames : Nat} {c : Console δ σ κ ι} {events : List KeyEvent}
    {m : Machine δ σ} (hevents : (KeyDevice.poll c.keys).events = .ok events)
    (hhandled : handle frames events (c.machine.noteAll (KeyDevice.poll c.keys).log) =
      (.completed, m)) :
    (c.frame frames).2.machine = m.tick.2 ∧
      ∀ e, m.tick.1 = .error e → (c.frame frames).1 = .failed e := by
  rcases hticked : m.tick with ⟨e | ⟨⟩, m₁⟩
  · simp [frame, hevents, hhandled, hticked]
  · simp [frame, hevents, hhandled, hticked]

/-- **A frame of a run that halts the machine ends with the tick that does.** -/
theorem haltedBy_frame {frames : Nat} {c : Console δ σ κ ι} {word : UInt16}
    (hbefore : c.machine.state ≠ .halted word)
    (hafter : (c.frame frames).2.machine.state = .halted word) :
    c.machine.HaltedBy word (c.frameActions frames) (c.frame frames).1 := by
  have hnoted : (c.machine.noteAll (KeyDevice.poll c.keys).log).state ≠ .halted word := hbefore
  cases hevents : (KeyDevice.poll c.keys).events with
  | error failure =>
      simp only [frame, hevents] at hafter
      exact absurd hafter hnoted
  | ok events =>
      have hhandled := handle_ne_halted frames events hnoted
      have hactions := handle_eq_actAll frames events
        (c.machine.noteAll (KeyDevice.poll c.keys).log)
      rcases hresult : handle frames events
        (c.machine.noteAll (KeyDevice.poll c.keys).log) with ⟨ending, m⟩
      rw [hresult] at hhandled hactions
      cases ending with
      | completed =>
          obtain ⟨hmachine, hending⟩ := frame_of_completed hevents hresult
          rw [hmachine] at hafter
          obtain ⟨e, herror⟩ := Machine.exists_error_of_halted hhandled hafter
          refine ⟨(KeyDevice.poll c.keys).log.map Action.note ++ handleActions frames events
            (c.machine.noteAll (KeyDevice.poll c.keys).log), e, ?_, hending e herror, ?_⟩
          · simp [frameActions, hevents, hresult]
          · rw [Machine.actAll_append, ← Machine.noteAll_eq_actAll, ← hactions]
            exact ⟨hhandled, herror, hafter⟩
      | quit =>
          simp only [frame, hevents, hresult] at hafter
          exact absurd hafter hhandled
      | failed e =>
          simp only [frame, hevents, hresult] at hafter
          exact absurd hafter hhandled

theorem haltedBy_play {n frames : Nat} {c : Console δ σ κ ι} {word : UInt16}
    (hbefore : c.machine.state ≠ .halted word)
    (hafter : (play frames n c).2.machine.state = .halted word) :
    c.machine.HaltedBy word (playActions frames n c) (play frames n c).1 := by
  induction n generalizing frames c with
  | zero => exact absurd hafter hbefore
  | succ n ih =>
      have hframe : (c.frame frames).2.machine.state = .halted word →
          c.machine.HaltedBy word (c.frameActions frames) (c.frame frames).1 :=
        haltedBy_frame hbefore
      have hactions := c.frame_eq_actAll frames
      rw [play_succ] at hafter ⊢
      rw [playActions]
      rcases hresult : c.frame frames with ⟨ending, c₁⟩
      rw [hresult] at hframe hactions hafter
      cases ending with
      | completed =>
          -- a frame that halts the machine does not complete, so it is a later one
          have hbefore₁ : c₁.machine.state ≠ .halted word := by
            intro hhalted
            obtain ⟨_, _, -, hfailed, -⟩ := hframe hhalted
            cases hfailed
          have hrest := ih hbefore₁ hafter
          rw [hactions] at hrest
          exact hrest.after
      | quit =>
          rw [List.append_nil]
          exact hframe hafter
      | failed e =>
          rw [List.append_nil]
          exact hframe hafter

/-- **A run that ends with its machine halted ends with the tick that halts it.** -/
theorem haltedBy_run {limit : Option Nat} {c : Console δ σ κ ι} {word : UInt16}
    (hbefore : c.machine.state ≠ .halted word)
    (hafter : (run limit c).2.machine.state = .halted word) :
    c.machine.HaltedBy word (c.actions limit) (run limit c).1 := by
  have hstarted : (c.machine.act .start).state ≠ .halted word :=
    Machine.act_ne_halted (by simp) hbefore
  unfold run at hafter ⊢
  unfold actions
  generalize limit.getD frameCeiling = n at hafter ⊢
  rcases hstart : c.machine.start with ⟨e | ⟨⟩, m⟩
  · have hm : c.machine.act .start = m := by simp [Machine.act, hstart]
    rw [hm] at hstarted
    rw [hstart] at hafter
    exact absurd hafter hstarted
  · have hm : c.machine.act .start = m := by simp [Machine.act, hstart]
    have hplay : (play 0 n { c with machine := m }).2.machine.state = .halted word →
        (c.machine.actAll [.start]).HaltedBy word (playActions 0 n { c with machine := m })
          (play 0 n { c with machine := m }).1 := by
      intro hhalted
      rw [Machine.actAll_cons, Machine.actAll_nil, hm]
      rw [hm] at hstarted
      exact haltedBy_play hstarted hhalted
    rw [hstart] at hafter
    rcases hplayed : play 0 n { c with machine := m } with ⟨ending, c₁⟩
    rw [hplayed] at hplay
    simp only [hplayed] at hafter ⊢
    cases ending with
    | completed =>
        -- stopping halts no machine, and a run that is halted does not complete
        have hplaying : c₁.machine.state = .halted word := by
          by_cases hbefore₁ : c₁.machine.state = .halted word
          · exact hbefore₁
          · have hstop : (Action.stop : Action δ) ≠ .tick := by simp
            exact absurd hafter (Machine.act_ne_halted hstop hbefore₁)
        obtain ⟨_, _, -, hfailed, -⟩ := hplay hplaying
        cases hfailed
    | quit =>
        rw [List.append_nil]
        exact (hplay hafter).after
    | failed e =>
        rw [List.append_nil]
        exact (hplay hafter).after

end Console

namespace Machine

variable {δ σ κ ι : Type} [DisplayDevice δ] [SoundDevice σ] [FrameClock κ] [KeyDevice ι]

/-- **A fault comes out of its frame exactly if the frame does not fail to show a picture.**  Say a
frame halts the machine at a word.  Then its instructions end with a fault there, one of those that
halt a machine for good, and the journal notes it.  The frame ends with the fault, unless the
display was asked for a picture and failed; then it ends with the failure of the display.  A run
that ends with its machine halted has a last frame, the one that halts it, and so the same holds of
the run. -/
theorem fault_surfaces_iff (word : UInt16) :
    (∀ m : Machine δ σ, m.state ≠ .halted word → m.tick.2.state = .halted word →
      ∃ e, m.FaultsWith e word ∧ e.isFatal = true ∧ .noted (.halting e) ∈ m.newEvents m.tick.2 ∧
        (m.tick.1 = .error e ↔ ¬ m.FailsToRender) ∧
        (m.FailsToRender → ∃ failure, m.tick.1 = .error (.io failure))) ∧
    ∀ (limit : Option Nat) (c : Console δ σ κ ι), c.machine.state ≠ .halted word →
      (Console.run limit c).2.machine.state = .halted word →
      ∃ before e, c.actions limit = before ++ [.tick] ∧
        let m := c.machine.actAll before
        m.FaultsWith e word ∧ e.isFatal = true ∧
          ((Console.run limit c).1 = .failed e ↔ ¬ m.FailsToRender) ∧
          (m.FailsToRender → ∃ failure, (Console.run limit c).1 = .failed (.io failure)) := by
  constructor
  · intro m hbefore hafter
    obtain ⟨e, hfault, hnoted, hshown⟩ := tick_of_halted hbefore hafter
    exact ⟨e, hfault, Cpu.FaultsWithin.isFatal hfault, hnoted, hshown, FailsToRender.io⟩
  · intro limit c hbefore hafter
    obtain ⟨before, e', hactions, hending, hnot, herror, hhalted⟩ :=
      Console.haltedBy_run hbefore hafter
    obtain ⟨e, hfault, -, hshown⟩ := tick_of_halted hnot hhalted
    refine ⟨before, e, hactions, hfault, Cpu.FaultsWithin.isFatal hfault, ?_, ?_⟩
    · -- the run ends with the error of its last frame
      rw [hending, ← hshown, herror, Ending.failed.injEq, Except.error.injEq]
    · intro hfails
      obtain ⟨failure, hio⟩ := hfails.io
      rw [herror] at hio
      cases hio
      exact ⟨failure, hending⟩

/-- A machine with a program that draws and then returns from nowhere, which halts it.  Its display
fails at the pictures of the given numbers. -/
def drawThenReturn (failRender : List Nat) : Machine (FailingDisplay PictureLog) Mute :=
  (((new .mute {} 0).attach (.new .new failRender [])).load [0xd0, 0x05, 0x00, 0xee]).start.2

/-- A run of that machine, without any keys. -/
def drawThenReturnRun (failRender : List Nat) :
    Console (FailingDisplay PictureLog) Mute FrameCount ScriptedKeys :=
  ⟨drawThenReturn failRender, ⟨0⟩, .new []⟩

/-- The second picture would fail, but there is only one: the fault comes out. -/
theorem fault_surfaces_drawThenReturn :
    (drawThenReturn [2]).state ≠ .halted 0x00ee ∧
      (drawThenReturn [2]).tick.2.state = .halted 0x00ee ∧
      (drawThenReturn [2]).tick.1 = .error (.stackUnderflow 0x204) ∧
      ¬ (drawThenReturn [2]).FailsToRender ∧
      (Console.run (some 3) (drawThenReturnRun [2])).1 = .failed (.stackUnderflow 0x204) ∧
      ∃ before, (drawThenReturnRun [2]).actions (some 3) = before ++ [.tick] := by
  obtain ⟨hbefore, hafter, hresult, hrun, hending⟩ :
      (drawThenReturn [2]).state ≠ .halted 0x00ee ∧
        (drawThenReturn [2]).tick.2.state = .halted 0x00ee ∧
        (drawThenReturn [2]).tick.1 = .error (.stackUnderflow 0x204) ∧
        (Console.run (some 3) (drawThenReturnRun [2])).2.machine.state = .halted 0x00ee ∧
        (Console.run (some 3) (drawThenReturnRun [2])).1 = .failed (.stackUnderflow 0x204) := by
    decide +kernel
  obtain ⟨hframes, hruns⟩ := fault_surfaces_iff (δ := FailingDisplay PictureLog) (σ := Mute)
    (κ := FrameCount) (ι := ScriptedKeys) 0x00ee
  obtain ⟨_, -, -, -, -, hfails⟩ := hframes _ hbefore hafter
  obtain ⟨before, _, hactions, -⟩ := hruns (some 3) (drawThenReturnRun [2]) hbefore hrun
  refine ⟨hbefore, hafter, hresult, ?_, hending, before, hactions⟩
  intro hrender
  obtain ⟨failure, hio⟩ := hfails hrender
  rw [hresult] at hio
  cases hio

/-- The display fails at the picture: neither the frame nor the run ends with a fault, though the
machine is halted, and the frame after it succeeds. -/
theorem fault_masked_drawThenReturn :
    (drawThenReturn [1]).state = .running ∧
      (drawThenReturn [1]).tick.2.state = .halted 0x00ee ∧
      (drawThenReturn [1]).tick.1 = .error (.io (.other "render failed")) ∧
      (∀ e, e.isFatal = true → (drawThenReturn [1]).tick.1 ≠ .error e) ∧
      (drawThenReturn [1]).tick.2.tick.1 = .ok () ∧
      (Console.run (some 3) (drawThenReturnRun [1])).1 =
        .failed (.io (.other "render failed")) := by
  obtain ⟨hbefore, hafter, hresult, hnext, hending⟩ :
      (drawThenReturn [1]).state = .running ∧
        (drawThenReturn [1]).tick.2.state = .halted 0x00ee ∧
        (drawThenReturn [1]).tick.1 = .error (.io (.other "render failed")) ∧
        (drawThenReturn [1]).tick.2.tick.1 = .ok () ∧
        (Console.run (some 3) (drawThenReturnRun [1])).1 =
          .failed (.io (.other "render failed")) := by
    decide +kernel
  refine ⟨hbefore, hafter, hresult, ?_, hnext, hending⟩
  intro e hfatal hfault
  rw [hresult] at hfault
  cases hfault
  cases hfatal

end Machine

end Chip8
