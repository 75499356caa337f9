/-
**What a frame leaves in the journal.**

The journal only grows.  So what a machine did can be read off from what it added: the instructions
it executed, the pictures it asked its display to show, the rings it asked its sound device for.
This module says of each part of a frame what the part adds, and puts the parts together.

The devices may fail at any time.  A display that cannot be cleared ends a batch of instructions
early, and one that cannot show a picture ends the frame; but a batch is always some number of steps
of the processor in a row, and what it adds is what these steps execute.  That much is
`Chip8.Machine.Executes`, which one instruction keeps and a batch of them with it.

Main definitions:

* `Chip8.Machine.instructions`, `Chip8.Machine.rings` — the instructions and the rings among some
  events;
* `Chip8.Machine.Adds` — the journal grew by events that tell of these instructions, pictures and
  rings;
* `Chip8.Machine.Executes` — a machine some instructions later;
* `Chip8.Machine.presented`, `Chip8.Machine.GetsThrough` — the machine when its picture has been
  shown, and that nothing failed until then;
* `Chip8.Machine.TickExecutes` — a frame executes an instruction of some kind;
* `Chip8.Action.KeepsTime`, `Chip8.Machine.Idle` — what is done between frames, and what it leaves
  alone.

Main results:

* `Chip8.Machine.Executes.cycle`, `Chip8.Machine.batch_executes` — an instruction, and a batch;
* `Chip8.Machine.presented_spec` — a frame up to its picture;
* `Chip8.Machine.finishFrame_adds`, `Chip8.Machine.finishFrame_frame` — the end of a frame;
* `Chip8.Machine.tick_executes` — **what a frame executes and shows**;
* `Chip8.Machine.idle_act` — between frames nothing is executed, shown or rung.
-/
import Chip8.Proofs.Attached
import Chip8.Proofs.Batch
import Chip8.Proofs.CallStack

set_option relaxedAutoImplicit false
set_option autoImplicit false

namespace Chip8

namespace Event

/-- The instruction whose execution an entry notes. -/
def instruction? : Event → Option Instruction
  | noted (.executing _ _ instruction) => some instruction
  | _ => none

/-- Of an entry about the sound device being asked to ring, whether it did. -/
def rung? : Event → Option Bool
  | called .beep rung => some rung
  | _ => none

end Event

namespace Machine

variable {δ σ : Type}

/-! ### Reading the journal -/

/-- The instructions that were executed. -/
def instructions (events : List Event) : List Instruction :=
  events.filterMap Event.instruction?

/-- The rings that the sound device was asked for, and whether it rang. -/
def rings (events : List Event) : List Bool :=
  events.filterMap Event.rung?

@[simp] theorem instructions_append (before after : List Event) :
    instructions (before ++ after) = instructions before ++ instructions after :=
  List.filterMap_append

@[simp] theorem rings_append (before after : List Event) :
    rings (before ++ after) = rings before ++ rings after :=
  List.filterMap_append

@[simp] theorem rings_noted (records : List Record) : rings (records.map Event.noted) = [] := by
  simp [rings, Event.rung?]

theorem newEvents_eq {m m' : Machine δ σ} {events : List Event}
    (h : m'.journal.toList = m.journal.toList ++ events) : m.newEvents m' = events := by
  rw [newEvents, h]
  simp

/-- The journal of `m'` is that of `m` with new events, which tell of these instructions, pictures
and rings. -/
structure Adds (m m' : Machine δ σ) (executed : List Instruction) (shown : List (List UInt8 × Bool))
    (rung : List Bool) : Prop where
  journal : m'.journal.toList = m.journal.toList ++ m.newEvents m'
  instructions : instructions (m.newEvents m') = executed
  renders : renders (m.newEvents m') = shown
  rings : rings (m.newEvents m') = rung

namespace Adds

theorem of_journal {m m' : Machine δ σ} {events : List Event}
    (h : m'.journal.toList = m.journal.toList ++ events) :
    Adds m m' (Machine.instructions events) (Machine.renders events) (Machine.rings events) := by
  have hnew := newEvents_eq h
  refine ⟨?_, by rw [hnew], by rw [hnew], by rw [hnew]⟩
  rw [hnew]
  exact h

/-- Where the journal is the same, nothing was added. -/
theorem of_eq {m m' : Machine δ σ} (h : m'.journal = m.journal) : Adds m m' [] [] [] := by
  have hnothing : m'.journal.toList = m.journal.toList ++ [] := by rw [h, List.append_nil]
  exact of_journal hnothing

/-- Two parts in a row. -/
theorem newEvents_append {m m₁ m₂ : Machine δ σ} {executed executed' : List Instruction}
    {shown shown' : List (List UInt8 × Bool)} {rung rung' : List Bool}
    (h : Adds m m₁ executed shown rung) (h' : Adds m₁ m₂ executed' shown' rung') :
    m.newEvents m₂ = m.newEvents m₁ ++ m₁.newEvents m₂ := by
  refine newEvents_eq ?_
  rw [h'.journal, h.journal, List.append_assoc]

theorem trans {m m₁ m₂ : Machine δ σ} {executed executed' : List Instruction}
    {shown shown' : List (List UInt8 × Bool)} {rung rung' : List Bool}
    (h : Adds m m₁ executed shown rung) (h' : Adds m₁ m₂ executed' shown' rung') :
    Adds m m₂ (executed ++ executed') (shown ++ shown') (rung ++ rung') := by
  have hnew := h.newEvents_append h'
  refine ⟨?_, ?_, ?_, ?_⟩
  · rw [hnew, h'.journal, h.journal, List.append_assoc]
  · rw [hnew, instructions_append, h.instructions, h'.instructions]
  · rw [hnew, renders_append, h.renders, h'.renders]
  · rw [hnew, rings_append, h.rings, h'.rings]

/-- One record that notes no execution. -/
theorem of_record {m m' : Machine δ σ} (record : Record)
    (hrecord : (Event.noted record).instruction? = none)
    (h : m'.journal.toList = m.journal.toList ++ [.noted record]) : Adds m m' [] [] [] := by
  have hadds := of_journal h
  have hnone : Machine.instructions [.noted record] = [] := by
    simp [Machine.instructions, hrecord]
  rw [hnone] at hadds
  exact hadds

theorem noRender {m m' : Machine δ σ} {executed : List Instruction} {rung : List Bool}
    (h : Adds m m' executed [] rung) : NoRender m m' :=
  ⟨m.newEvents m', h.renders, h.journal⟩

end Adds

theorem Asked.adds {m m' : Machine δ σ} {events : List Event} (h : Asked m m' events) :
    Adds m m' (instructions events) (renders events) (rings events) :=
  .of_journal h.journal

/-! ### Instructions -/

theorem instructions_log (c : Cpu) :
    instructions (c.step.log.map Event.noted) = [.decode c.currentWord] := by
  rw [Cpu.step_log]
  unfold Cpu.notes
  split <;> rfl

theorem executed_adds (m : Machine δ σ) :
    Adds m m.executed [.decode m.cpu.currentWord] [] [] := by
  have hjournal : m.executed.journal.toList =
      m.journal.toList ++ m.cpu.step.log.map Event.noted := by
    simp [executed, noteAll]
  have hadds := Adds.of_journal hjournal
  rw [instructions_log, renders_noted, rings_noted] at hadds
  exact hadds

section Instructions

variable [DisplayDevice δ]

theorem clearDisplay_adds (m : Machine δ σ) : Adds m m.clearDisplay.2 [] [] [] := by
  have hadds := m.clearDisplay_asked.adds
  cases hd : m.display with
  | none =>
      simp only [displayEvents, hd] at hadds
      exact hadds
  | some d =>
      simp only [displayEvents, hd] at hadds
      exact hadds

/-- The machine `m'` is `m` some instructions later, whatever became of the display. -/
structure Executes (m : Machine δ σ) (steps : Nat) (m' : Machine δ σ) : Prop where
  cpu : m'.cpu = m.cpu.after steps
  config : m'.config = m.config
  frame : m'.frame = m.frame
  attached : m'.display.isSome = m.display.isSome
  adds : Adds m m' ((m.cpu.words steps).map .decode) [] []

/-- What becomes of a machine in one instruction. -/
theorem cycle_executes (m : Machine δ σ) : Executes m 1 m.cycle.2 := by
  have hexecuted : Executes m 1 m.executed := ⟨rfl, rfl, rfl, rfl, m.executed_adds⟩
  rcases hout : m.cpu.step.outcome with e | flow
  · rw [cycle_of_error hout]
    have hnote : Adds m.executed ({ m.executed with state := .halted m.cpu.currentWord }.note
        (.halting e)) [] [] [] := .of_record (.halting e) rfl (by simp [note])
    exact ⟨rfl, rfl, rfl, rfl, hexecuted.adds.trans hnote⟩
  · cases flow with
    | next =>
        rw [cycle_of_next hout]
        exact hexecuted
    | cleared =>
        rw [cycle_of_cleared hout]
        have hasked := m.executed.clearDisplay_asked
        exact ⟨hasked.cpu, hasked.config, hasked.frame, m.executed.clearDisplay_isSome,
          hexecuted.adds.trans m.executed.clearDisplay_adds⟩
    | awaitKey register =>
        rw [cycle_of_awaitKey hout]
        have hnote : Adds m.executed ({ m.executed with state := .waitingForKey register }.note
            (.waiting register)) [] [] [] := .of_record (.waiting register) rfl (by simp [note])
        exact ⟨rfl, rfl, rfl, rfl, hexecuted.adds.trans hnote⟩

/-- One more instruction. -/
theorem Executes.cycle {m m' : Machine δ σ} {steps : Nat} (h : Executes m steps m') :
    Executes m (steps + 1) m'.cycle.2 := by
  have hnext := m'.cycle_executes
  refine ⟨?_, hnext.config.trans h.config, hnext.frame.trans h.frame,
    hnext.attached.trans h.attached, ?_⟩
  · rw [hnext.cpu, h.cpu]
    rfl
  · have hadds := h.adds.trans hnext.adds
    rw [h.cpu] at hadds
    rw [Cpu.words_succ, List.map_append]
    exact hadds

/-- **A batch is some steps in a row**, however it ends. -/
theorem batch_executes (n : Nat) (m : Machine δ σ) : ∃ steps, Executes m steps (m.batch n).2 := by
  refine batch_keeps (P := fun m' => ∃ steps, Executes m steps m') ?_ n
    ⟨0, rfl, rfl, rfl, rfl, .of_eq rfl⟩
  rintro m' - ⟨steps, h⟩
  exact ⟨steps + 1, h.cycle⟩

end Instructions

/-! ### The picture -/

section Picture

variable [DisplayDevice δ]

/-- Showing the picture asks for it, if something is pending. -/
theorem present_journal (m : Machine δ σ) :
    m.present.2.journal.toList = m.journal.toList ++
      if m.cpu.drawPending then
        m.displayEvents (.render m.cpu.screen.pixels) (succeeded m.present.1) else [] := by
  by_cases hpending : m.cpu.drawPending = true
  · have hpresent : m.present = { m with cpu := m.cpu.takeDrawPending.2 }.renderDisplay := by
      simp [present, Cpu.takeDrawPending, hpending]
    rw [hpresent, if_pos hpending]
    exact (renderDisplay_asked { m with cpu := m.cpu.takeDrawPending.2 }).journal
  · have hpresent : m.present = (.ok (), { m with cpu := m.cpu.takeDrawPending.2 }) := by
      simp [present, Cpu.takeDrawPending, hpending]
    rw [hpresent, if_neg hpending, List.append_nil]

/-- Showing the picture adds it, if something is pending and there is a display to show it. -/
theorem present_adds (m : Machine δ σ) :
    Adds m m.present.2 []
      (if m.cpu.drawPending && m.display.isSome then
        [(m.cpu.screen.pixels, succeeded m.present.1)] else []) [] := by
  have hadds := Adds.of_journal m.present_journal
  unfold displayEvents at hadds
  generalize m.cpu.drawPending = pending at hadds ⊢
  generalize m.display = display at hadds ⊢
  cases pending <;> cases display <;> exact hadds

/-- The machine when the instructions of a frame are over and its picture has been shown. -/
def presented (m : Machine δ σ) : Machine δ σ :=
  (m.batch m.config.cyclesPerFrame).2.present.2

/-- Neither an instruction of the frame fails nor the picture. -/
def GetsThrough (m : Machine δ σ) : Prop :=
  (m.batch m.config.cyclesPerFrame).1 = .ok () ∧
    (m.batch m.config.cyclesPerFrame).2.present.1 = .ok ()

/-- The machine `m'` is `m` some instructions later, and the picture they make, if there is one to
show, has been shown or not. -/
structure Presents (m : Machine δ σ) (steps : Nat) (shown : Bool) (m' : Machine δ σ) : Prop where
  cpu : m'.cpu = { m.cpu.after steps with drawPending := false }
  config : m'.config = m.config
  frame : m'.frame = m.frame
  adds : Adds m m' ((m.cpu.words steps).map .decode)
    (if (m.cpu.after steps).drawPending && m.display.isSome then
      [((m.cpu.after steps).screen.pixels, shown)] else []) []

/-- A frame up to its picture. -/
theorem presented_spec (m : Machine δ σ) :
    ∃ steps, Presents m steps
      (succeeded (m.batch m.config.cyclesPerFrame).2.present.1) m.presented := by
  obtain ⟨steps, hbatch⟩ := batch_executes m.config.cyclesPerFrame m
  obtain ⟨_, hasked, -⟩ := (m.batch m.config.cyclesPerFrame).2.present_spec
  have hadds := hbatch.adds.trans (m.batch m.config.cyclesPerFrame).2.present_adds
  rw [hbatch.cpu, hbatch.attached, List.append_nil] at hadds
  refine ⟨steps, ?_, hasked.config.trans hbatch.config, hasked.frame.trans hbatch.frame, hadds⟩
  rw [presented, hasked.cpu, ← hbatch.cpu]
  rfl

end Picture

/-! ### The end of a frame -/

section Finish

variable [SoundDevice σ]

/-- Stepping the timers asks for a ring, if the sound timer takes its last step. -/
theorem decay_journal (m : Machine δ σ) :
    m.decay.2.journal.toList = m.journal.toList ++
      if m.timersDue && m.cpu.timers.sound == 1 then
        [.called .beep (succeeded m.decay.1)] else [] := by
  by_cases hdue : m.timersDue = true
  · by_cases hrings : (m.cpu.timers.sound == 1) = true
    · have hdecay : m.decay = { m with cpu := m.cpu.tickTimers.2 }.ring := by
        simp [decay, hdue, Cpu.tickTimers, Timers.tick, hrings]
      rw [hdecay, if_pos (by simp [hdue, hrings])]
      exact (ring_asked { m with cpu := m.cpu.tickTimers.2 }).journal
    · have hdecay : m.decay = (.ok (), { m with cpu := m.cpu.tickTimers.2 }) := by
        simp [decay, hdue, Cpu.tickTimers, Timers.tick, hrings]
      rw [hdecay, if_neg (by simp [hrings]), List.append_nil]
  · have hdecay : m.decay = (.ok (), m) := by simp [decay, hdue]
    rw [hdecay, if_neg (by simp [hdue]), List.append_nil]

/-- Stepping the timers adds a ring, if the sound timer takes its last step. -/
theorem decay_adds (m : Machine δ σ) :
    Adds m m.decay.2 [] []
      (if m.timersDue && m.cpu.timers.sound == 1 then [succeeded m.decay.1] else []) := by
  have hadds := Adds.of_journal m.decay_journal
  generalize (m.timersDue && m.cpu.timers.sound == 1) = rings at hadds ⊢
  cases rings <;> exact hadds

theorem decay_frame (m : Machine δ σ) :
    m.decay.2.frame = m.frame ∧ m.decay.2.config = m.config := by
  unfold decay
  split
  · by_cases hrings : m.cpu.tickTimers.1 = true
    · have hasked := ring_asked { m with cpu := m.cpu.tickTimers.2 }
      simp only [hrings, if_true]
      exact ⟨hasked.frame, hasked.config⟩
    · simp only [hrings]
      exact ⟨rfl, rfl⟩
  · exact ⟨rfl, rfl⟩

/-- Unless the ring fails, the sound device is told that the frame is over. -/
theorem finishFrame_journal (m : Machine δ σ) :
    m.finishFrame.2.journal.toList = m.decay.2.journal.toList ++
      if succeeded m.decay.1 then [.called .update (succeeded m.finishFrame.1)] else [] := by
  rcases hresult : m.decay with ⟨e | ⟨⟩, m₁⟩
  · simp only [finishFrame, hresult]
    exact (List.append_nil _).symm
  · simp only [finishFrame, hresult]
    exact (updateSound_asked { m₁ with frame := m₁.frame + 1 }).journal

/-- The end of a frame adds what stepping the timers adds. -/
theorem finishFrame_adds (m : Machine δ σ) :
    Adds m m.finishFrame.2 [] []
      (if m.timersDue && m.cpu.timers.sound == 1 then [succeeded m.decay.1] else []) := by
  have hboth := m.decay_adds.trans (.of_journal m.finishFrame_journal)
  generalize succeeded m.decay.1 = rang at hboth ⊢
  rw [← List.append_nil (ite _ _ _)]
  cases rang <;> exact hboth

/-- The frame is counted unless the ring fails, and only then can it succeed. -/
theorem finishFrame_frame (m : Machine δ σ) :
    m.finishFrame.2.frame = (if succeeded m.decay.1 then m.frame + 1 else m.frame) ∧
      m.finishFrame.2.config = m.config ∧
      (m.finishFrame.1 = .ok () → succeeded m.decay.1 = true) := by
  obtain ⟨hframe, hconfig⟩ := m.decay_frame
  rcases hresult : m.decay with ⟨e | ⟨⟩, m₁⟩
  · rw [hresult] at hframe hconfig
    simp only [finishFrame, hresult]
    exact ⟨hframe, hconfig, by simp⟩
  · rw [hresult] at hframe hconfig
    have hupdate := updateSound_asked { m₁ with frame := m₁.frame + 1 }
    simp only [finishFrame, hresult]
    refine ⟨?_, hupdate.config.trans hconfig, by simp [succeeded]⟩
    rw [hupdate.frame, ← hframe]
    rfl

end Finish

/-! ### A frame -/

section Frame

variable [DisplayDevice δ] [SoundDevice σ]

theorem tick_of_getsThrough {m : Machine δ σ} (h : m.GetsThrough) :
    m.tick = m.presented.finishFrame :=
  tick_of_ok h.1 h.2

theorem tick_of_not_getsThrough {m : Machine δ σ} (h : ¬ m.GetsThrough) :
    m.tick.2 = m.presented :=
  tick_of_not_ok (Classical.not_and_iff_not_or_not.1 h)

/-- A frame that succeeds gets through. -/
theorem getsThrough_of_ok {m : Machine δ σ} (h : m.tick.1 = .ok ()) : m.GetsThrough := by
  unfold tick at h
  rcases hpresent : (m.batch m.config.cyclesPerFrame).2.present with ⟨e | ⟨⟩, m₁⟩
  · simp [hpresent] at h
  · rcases hbatch : (m.batch m.config.cyclesPerFrame).1 with e | ⟨⟩
    · simp [hpresent, hbatch] at h
    · exact ⟨hbatch, by rw [hpresent]⟩

/-- **What a frame executes and shows.**  It executes some steps in a row, and if they leave
something pending it asks the display, if there is one, for the picture that they make. -/
theorem tick_executes (m : Machine δ σ) :
    ∃ steps shown, Presents m steps shown m.presented ∧
      instructions (m.newEvents m.tick.2) = (m.cpu.words steps).map .decode ∧
      renders (m.newEvents m.tick.2) =
        (if (m.cpu.after steps).drawPending && m.display.isSome then
          [((m.cpu.after steps).screen.pixels, shown)] else []) := by
  obtain ⟨steps, hpresents⟩ := m.presented_spec
  refine ⟨steps, _, hpresents, ?_⟩
  by_cases hthrough : m.GetsThrough
  · have hadds := hpresents.adds.trans m.presented.finishFrame_adds
    rw [tick_of_getsThrough hthrough]
    refine ⟨?_, ?_⟩
    · rw [hadds.instructions, List.append_nil]
    · rw [hadds.renders, List.append_nil]
  · rw [tick_of_not_getsThrough hthrough]
    exact ⟨hpresents.adds.instructions, hpresents.adds.renders⟩

/-- The frame executes an instruction of this kind. -/
def TickExecutes (m : Machine δ σ) (kind : Instruction → Bool) : Prop :=
  ∃ instruction ∈ instructions (m.newEvents m.tick.2), kind instruction = true

instance (m : Machine δ σ) (kind : Instruction → Bool) : Decidable (m.TickExecutes kind) :=
  inferInstanceAs (Decidable (∃ instruction ∈ _, kind instruction = true))

end Frame

/-! ### Between frames -/

/-- What is done between frames: nothing is executed, shown or rung. -/
structure Idle (m m' : Machine δ σ) : Prop where
  config : m'.config = m.config
  frame : m'.frame = m.frame
  timers : m'.cpu.timers = m.cpu.timers
  drawPending : m'.cpu.drawPending = m.cpu.drawPending
  adds : ∃ noted, Adds m m' noted [] []

namespace Idle

theorem refl (m : Machine δ σ) : Idle m m :=
  ⟨rfl, rfl, rfl, rfl, [], .of_eq rfl⟩

theorem trans {m m₁ m₂ : Machine δ σ} (h : Idle m m₁) (h' : Idle m₁ m₂) : Idle m m₂ := by
  obtain ⟨noted, hadds⟩ := h.adds
  obtain ⟨noted', hadds'⟩ := h'.adds
  exact ⟨h'.config.trans h.config, h'.frame.trans h.frame, h'.timers.trans h.timers,
    h'.drawPending.trans h.drawPending, noted ++ noted', hadds.trans hadds'⟩

theorem note (m : Machine δ σ) (record : Record) : Idle m (m.note record) := by
  have hjournal : (m.note record).journal.toList = m.journal.toList ++ [.noted record] := by
    simp [Machine.note]
  exact ⟨rfl, rfl, rfl, rfl, _, .of_journal hjournal⟩

theorem start (m : Machine δ σ) : Idle m m.start.2 := by
  unfold Machine.start
  split
  · exact refl m
  · exact refl m
  · exact refl m
  all_goals
    have hrunning : Idle m { m with state := .running } :=
      ⟨rfl, rfl, rfl, rfl, [], .of_eq rfl⟩
    exact hrunning.trans (note _ _)

theorem stop (m : Machine δ σ) : Idle m m.stop := by
  unfold Machine.stop
  split
  · have hstopped : Idle m { m with state := .stopped } := ⟨rfl, rfl, rfl, rfl, [], .of_eq rfl⟩
    exact hstopped.trans (note _ _)
  · exact refl m

theorem setKey (m : Machine δ σ) (key : UInt8) : Idle m (m.setKey key).2 := by
  unfold Machine.setKey
  split
  · rename_i register _
    have hset : Idle m { m with
        cpu := { m.cpu with registers := m.cpu.registers.set register key }
        state := .stopped } := ⟨rfl, rfl, rfl, rfl, [], .of_eq rfl⟩
    exact (hset.trans (note _ _)).trans (start _)
  all_goals exact ⟨rfl, rfl, rfl, rfl, [], .of_eq rfl⟩

end Idle

end Machine

/-- Neither is the machine reset, nor is its processor worked on from outside. -/
def Action.KeepsTime {δ : Type} : Action δ → Prop
  | .reset | .alter _ => False
  | .attach _ | .start | .stop | .load _ | .loadFrom _ | .setKey _ | .unsetKey _ => True
  | .tick | .note _ => True

namespace Machine

variable {δ σ : Type} [DisplayDevice δ] [SoundDevice σ]

/-- **Between frames nothing is executed, shown or rung**, and neither the timers nor the count of
frames change. -/
theorem idle_act {action : Action δ} (hkeeps : action.KeepsTime) (htick : action ≠ .tick)
    (m : Machine δ σ) : Idle m (m.act action) := by
  cases action with
  | attach display => exact ⟨rfl, rfl, rfl, rfl, [], .of_eq rfl⟩
  | start => exact .start m
  | stop => exact .stop m
  | reset => exact hkeeps.elim
  | load program => exact ⟨rfl, rfl, rfl, rfl, [], .of_eq rfl⟩
  | loadFrom source => exact ⟨rfl, rfl, rfl, rfl, [], .of_eq rfl⟩
  | setKey key => exact .setKey m key
  | unsetKey key => exact ⟨rfl, rfl, rfl, rfl, [], .of_eq rfl⟩
  | tick => exact absurd rfl htick
  | note record => exact .note m record
  | alter cpu => exact hkeeps.elim

end Machine

end Chip8
