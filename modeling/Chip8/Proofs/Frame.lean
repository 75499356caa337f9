/-
**The parts of a frame.**

A frame is made of instructions, the picture, the timers and the sound.  Each of these parts either
works on the processor or asks a device for something, and each adds to the journal what it did.
This module says of each part what it does to the machine and what it adds, so that the theory of
frames does not have to look into them.

Main definitions:

* `Chip8.Machine.Asked` — nothing but the devices and the journal changed, the journal by so much;
* `Chip8.Machine.renders` — the pictures among some events, and whether they could be shown;
* `Chip8.Machine.NoRender` — the journal grew, and no picture was shown;
* `Chip8.Machine.executed` — the machine after the next step, before it is acted upon.

Main results:

* `Chip8.Machine.clearDisplay_asked`, `Chip8.Machine.renderDisplay_asked`,
  `Chip8.Machine.ring_asked`, `Chip8.Machine.updateSound_asked` — the four requests;
* `Chip8.Machine.cycle_of_next`, `Chip8.Machine.cycle_of_cleared`,
  `Chip8.Machine.cycle_of_awaitKey`, `Chip8.Machine.cycle_of_error` — an instruction, by what its
  step comes to;
* `Chip8.Machine.present_spec`, `Chip8.Machine.decay_spec`, `Chip8.Machine.finishFrame_spec` — what
  comes after the instructions;
* `Chip8.Machine.tick_of_ok`, `Chip8.Machine.tick_of_not_ok` — a frame, by how its first parts end;
* `Chip8.Machine.batch_keeps`, `Chip8.Machine.tick_ends`, `Chip8.Machine.tick_keeps` — what the
  parts of a frame keep, a frame keeps;
* `Chip8.Machine.tick_of_not_running` — a frame of a machine that is not running;
* `Chip8.Machine.tick_isSome` — a frame neither takes the display away nor brings one.
-/
import Chip8.Machine
import Chip8.Proofs.Step

set_option relaxedAutoImplicit false
set_option autoImplicit false

namespace Chip8.Machine

variable {δ σ : Type}

/-! ### Asking the devices -/

/-- Nothing but the devices and the journal changed, and to the journal these events were added. -/
structure Asked (m m' : Machine δ σ) (events : List Event) : Prop where
  cpu : m'.cpu = m.cpu
  config : m'.config = m.config
  state : m'.state = m.state
  frame : m'.frame = m.frame
  journal : m'.journal.toList = m.journal.toList ++ events

theorem Asked.refl (m : Machine δ σ) : Asked m m [] :=
  ⟨rfl, rfl, rfl, rfl, by simp⟩

@[simp] theorem succeeded_mapError {ε ε' α : Type} (f : ε → ε') (result : Except ε α) :
    succeeded (result.mapError f) = succeeded result := by
  cases result <;> rfl

/-- The pictures that the display was asked to show, and whether it did. -/
def renders (events : List Event) : List (List UInt8 × Bool) :=
  events.filterMap fun
    | .called (.render pixels) shown => some (pixels, shown)
    | _ => none

@[simp] theorem renders_nil : renders [] = [] := rfl

@[simp] theorem renders_append (before after : List Event) :
    renders (before ++ after) = renders before ++ renders after :=
  List.filterMap_append

@[simp] theorem renders_noted (records : List Record) :
    renders (records.map Event.noted) = [] := by
  simp [renders]

/-- Events were added to the journal, and none of them shows a picture. -/
def NoRender (m m' : Machine δ σ) : Prop :=
  ∃ events, renders events = [] ∧ m'.journal.toList = m.journal.toList ++ events

theorem NoRender.of_eq {m m' : Machine δ σ} (h : m'.journal = m.journal) : NoRender m m' :=
  ⟨[], rfl, by rw [h, List.append_nil]⟩

theorem NoRender.trans {m₁ m₂ m₃ : Machine δ σ} (h : NoRender m₁ m₂) (h' : NoRender m₂ m₃) :
    NoRender m₁ m₃ := by
  obtain ⟨events, hnone, hevents⟩ := h
  obtain ⟨events', hnone', hevents'⟩ := h'
  exact ⟨events ++ events', by rw [renders_append, hnone, hnone', List.append_nil],
    by rw [hevents', hevents, List.append_assoc]⟩

theorem noRender_note (m : Machine δ σ) (record : Record) : NoRender m (m.note record) :=
  ⟨[.noted record], rfl, by simp [note]⟩

/-- The events of a request to the display: none if there is no display. -/
def displayEvents (m : Machine δ σ) (call : DeviceCall) (succeeded : Bool) : List Event :=
  match m.display with
  | none => []
  | some _ => [.called call succeeded]

theorem Asked.noRender {m m' : Machine δ σ} {events : List Event} (h : Asked m m' events)
    (hnone : renders events = []) : NoRender m m' :=
  ⟨events, hnone, h.journal⟩

theorem clearDisplay_asked [DisplayDevice δ] (m : Machine δ σ) :
    Asked m m.clearDisplay.2 (m.displayEvents .clear (succeeded m.clearDisplay.1)) := by
  cases hd : m.display with
  | none => simpa [clearDisplay, displayEvents, hd] using Asked.refl m
  | some d => constructor <;> simp [clearDisplay, displayEvents, hd]

theorem clearDisplay_noRender [DisplayDevice δ] (m : Machine δ σ) :
    NoRender m m.clearDisplay.2 := by
  refine m.clearDisplay_asked.noRender ?_
  cases hd : m.display <;> simp [displayEvents, hd, renders]

theorem renderDisplay_asked [DisplayDevice δ] (m : Machine δ σ) :
    Asked m m.renderDisplay.2
      (m.displayEvents (.render m.cpu.screen.pixels) (succeeded m.renderDisplay.1)) := by
  cases hd : m.display with
  | none => simpa [renderDisplay, displayEvents, hd] using Asked.refl m
  | some d => constructor <;> simp [renderDisplay, displayEvents, hd]

theorem ring_asked [SoundDevice σ] (m : Machine δ σ) :
    Asked m m.ring.2 [.called .beep (succeeded m.ring.1)] := by
  refine ⟨rfl, rfl, rfl, rfl, ?_⟩
  simp [ring]

theorem updateSound_asked [SoundDevice σ] (m : Machine δ σ) :
    Asked m m.updateSound.2 [.called .update (succeeded m.updateSound.1)] := by
  refine ⟨rfl, rfl, rfl, rfl, ?_⟩
  simp [updateSound]

/-! ### One instruction -/

/-- The machine after the next step, with what the step noted in the journal. -/
def executed (m : Machine δ σ) : Machine δ σ :=
  { m with cpu := m.cpu.step.cpu }.noteAll m.cpu.step.log

theorem executed_noRender (m : Machine δ σ) : NoRender m m.executed :=
  ⟨m.cpu.step.log.map Event.noted, renders_noted _, by simp [executed, noteAll]⟩

section

variable [DisplayDevice δ]

theorem cycle_of_next {m : Machine δ σ} (h : m.cpu.step.outcome = .ok .next) :
    m.cycle = (.ok (), m.executed) := by
  simp only [cycle, h]
  rfl

theorem cycle_of_cleared {m : Machine δ σ} (h : m.cpu.step.outcome = .ok .cleared) :
    m.cycle = m.executed.clearDisplay := by
  simp only [cycle, h]
  rfl

theorem cycle_of_awaitKey {m : Machine δ σ} {register : Nat}
    (h : m.cpu.step.outcome = .ok (.awaitKey register)) :
    m.cycle = (.ok (), { m.executed with state := .waitingForKey register }.note
      (.waiting register)) := by
  simp only [cycle, h]
  rfl

/-- A step that fails, fails for good, and halts the machine. -/
theorem cycle_of_error {m : Machine δ σ} {e : Error} (h : m.cpu.step.outcome = .error e) :
    m.cycle = (.error e, { m.executed with state := .halted m.cpu.currentWord }.note
      (.halting e)) := by
  simp only [cycle, h, Cpu.isFatal_of_step h, if_true]
  rfl

/-- An instruction that goes well is a step that succeeds. -/
theorem proceeds_of_cycle {m : Machine δ σ} (h : m.cycle.1 = .ok ()) : m.cpu.Proceeds := by
  rcases hout : m.cpu.step.outcome with e | flow
  · rw [cycle_of_error hout] at h
    cases h
  · exact ⟨flow, hout⟩

end

/-! ### After the instructions -/

/-- Showing the picture forgets that something was drawn.  It asks for the picture as it is or for
nothing, and it fails only if the display does. -/
theorem present_spec [DisplayDevice δ] (m : Machine δ σ) :
    ∃ events, Asked { m with cpu := m.cpu.takeDrawPending.2 } m.present.2 events ∧
      (renders events = [] ∧ m.present.1 = .ok () ∨
        renders events = [(m.cpu.screen.pixels, succeeded m.present.1)]) := by
  by_cases hpending : m.cpu.drawPending = true
  · have hpresent : m.present = { m with cpu := m.cpu.takeDrawPending.2 }.renderDisplay := by
      simp [present, Cpu.takeDrawPending, hpending]
    rw [hpresent]
    refine ⟨_, renderDisplay_asked _, ?_⟩
    cases hd : m.display with
    | none => simp [displayEvents, renderDisplay]
    | some d => exact .inr (by simp [displayEvents, renders, Cpu.takeDrawPending])
  · have hpresent : m.present = (.ok (), { m with cpu := m.cpu.takeDrawPending.2 }) := by
      simp [present, Cpu.takeDrawPending, hpending]
    rw [hpresent]
    exact ⟨[], Asked.refl _, .inl ⟨rfl, rfl⟩⟩

/-- The timers step when they are due, whatever the sound device does. -/
theorem decay_spec [SoundDevice σ] (m : Machine δ σ) :
    m.decay.2.cpu = (if m.timersDue then m.cpu.tickTimers.2 else m.cpu) ∧
      m.decay.2.state = m.state ∧ m.decay.2.display = m.display ∧ NoRender m m.decay.2 := by
  by_cases hdue : m.timersDue = true
  · rw [if_pos hdue]
    by_cases hrings : m.cpu.tickTimers.1 = true
    · have hdecay : m.decay = { m with cpu := m.cpu.tickTimers.2 }.ring := by
        simp [decay, hdue, hrings]
      have hasked := ring_asked { m with cpu := m.cpu.tickTimers.2 }
      rw [hdecay]
      exact ⟨hasked.cpu, hasked.state, rfl, hasked.noRender rfl⟩
    · have hdecay : m.decay = (.ok (), { m with cpu := m.cpu.tickTimers.2 }) := by
        simp [decay, hdue, hrings]
      rw [hdecay]
      exact ⟨rfl, rfl, rfl, .of_eq rfl⟩
  · have hdecay : m.decay = (.ok (), m) := by simp [decay, hdue]
    rw [if_neg hdue, hdecay]
    exact ⟨rfl, rfl, rfl, .of_eq rfl⟩

/-- Finishing a frame is stepping the timers, as far as the processor and the display go. -/
theorem finishFrame_spec [SoundDevice σ] (m : Machine δ σ) :
    m.finishFrame.2.cpu = (if m.timersDue then m.cpu.tickTimers.2 else m.cpu) ∧
      m.finishFrame.2.state = m.state ∧ m.finishFrame.2.display = m.display ∧
      NoRender m m.finishFrame.2 := by
  obtain ⟨hcpu, hstate, hdisplay, hquiet⟩ := m.decay_spec
  -- a ring that fails ends the frame before it is counted, but the timers have stepped by then
  rcases hresult : m.decay with ⟨e | ⟨⟩, m₁⟩
  · rw [hresult] at hcpu hstate hdisplay hquiet
    simp only [finishFrame, hresult]
    exact ⟨hcpu, hstate, hdisplay, hquiet⟩
  · rw [hresult] at hcpu hstate hdisplay hquiet
    have hupdate := updateSound_asked { m₁ with frame := m₁.frame + 1 }
    simp only [finishFrame, hresult]
    exact ⟨hupdate.cpu.trans hcpu, hupdate.state.trans hstate, hdisplay,
      hquiet.trans (hupdate.noRender rfl)⟩

theorem tick_of_ok [DisplayDevice δ] [SoundDevice σ] {m : Machine δ σ}
    (hbatch : (m.batch m.config.cyclesPerFrame).1 = .ok ())
    (hpresent : (m.batch m.config.cyclesPerFrame).2.present.1 = .ok ()) :
    m.tick = (m.batch m.config.cyclesPerFrame).2.present.2.finishFrame := by
  simp only [tick, hbatch, hpresent]

theorem tick_of_not_ok [DisplayDevice δ] [SoundDevice σ] {m : Machine δ σ}
    (h : (m.batch m.config.cyclesPerFrame).1 ≠ .ok () ∨
      (m.batch m.config.cyclesPerFrame).2.present.1 ≠ .ok ()) :
    m.tick.2 = (m.batch m.config.cyclesPerFrame).2.present.2 := by
  unfold tick
  rcases hpresent : (m.batch m.config.cyclesPerFrame).2.present with ⟨e | ⟨⟩, m₁⟩
  · simp [hpresent]
  · rcases hbatch : (m.batch m.config.cyclesPerFrame).1 with e | ⟨⟩
    · simp [hpresent, hbatch]
    · rw [hbatch, hpresent] at h
      simp at h

/-! ### What a frame keeps -/

section Keeps

variable [DisplayDevice δ]

/-- What every instruction of a running machine keeps, a batch of them keeps. -/
theorem batch_keeps {P : Machine δ σ → Prop}
    (hcycle : ∀ m, m.isRunning = true → P m → P m.cycle.2) (n : Nat) {m : Machine δ σ} (hm : P m) :
    P (m.batch n).2 := by
  induction n generalizing m with
  | zero => exact hm
  | succ n ih =>
      by_cases hrun : m.isRunning = true
      · have hnext := hcycle m hrun hm
        rw [batch, if_pos hrun]
        rcases hresult : m.cycle with ⟨e | ⟨⟩, m₁⟩
        · rw [hresult] at hnext
          exact hnext
        · rw [hresult] at hnext
          exact ih hnext
      · rw [batch_of_not_running (Bool.eq_false_iff.2 hrun)]
        exact hm

variable [SoundDevice σ]

/-- What holds when the picture has been shown, and is kept to the end of the frame, holds after the
frame. -/
theorem tick_ends {P : Machine δ σ → Prop} {m : Machine δ σ}
    (hpresent : P (m.batch m.config.cyclesPerFrame).2.present.2)
    (hfinish : ∀ m, P m → P m.finishFrame.2) : P m.tick.2 := by
  by_cases hok : (m.batch m.config.cyclesPerFrame).1 = .ok () ∧
      (m.batch m.config.cyclesPerFrame).2.present.1 = .ok ()
  · rw [tick_of_ok hok.1 hok.2]
    exact hfinish _ hpresent
  · rw [tick_of_not_ok (Classical.not_and_iff_not_or_not.1 hok)]
    exact hpresent

/-- What the parts of a frame keep, a frame keeps. -/
theorem tick_keeps {P : Machine δ σ → Prop}
    (hcycle : ∀ m, m.isRunning = true → P m → P m.cycle.2) (hpresent : ∀ m, P m → P m.present.2)
    (hfinish : ∀ m, P m → P m.finishFrame.2) {m : Machine δ σ} (hm : P m) : P m.tick.2 :=
  tick_ends (hpresent _ (batch_keeps hcycle _ hm)) hfinish

/-- A frame of a machine that is not running steps the timers at most, and forgets that something
was drawn. -/
theorem tick_of_not_running {m : Machine δ σ} (h : m.isRunning = false) :
    m.tick.2.state = m.state ∧
      ∃ timers, m.tick.2.cpu = { m.cpu with timers := timers, drawPending := false } := by
  have hbatch : m.batch m.config.cyclesPerFrame = (.ok (), m) := batch_of_not_running h _
  obtain ⟨_, hasked, -⟩ := m.present_spec
  refine tick_ends (P := fun m' => m'.state = m.state ∧
    ∃ timers, m'.cpu = { m.cpu with timers := timers, drawPending := false }) ?_ ?_
  · rw [hbatch]
    exact ⟨hasked.state, m.cpu.timers, hasked.cpu⟩
  · rintro m' ⟨hstate, timers, hcpu⟩
    obtain ⟨hcpu', hstate', -⟩ := m'.finishFrame_spec
    refine ⟨hstate'.trans hstate, ?_⟩
    rw [hcpu', hcpu]
    split
    · exact ⟨timers.tick.2, rfl⟩
    · exact ⟨timers, rfl⟩

end Keeps

/-! ### The display stays -/

section Attached

variable [DisplayDevice δ]

theorem clearDisplay_isSome (m : Machine δ σ) :
    m.clearDisplay.2.display.isSome = m.display.isSome := by
  cases hd : m.display <;> simp [clearDisplay, hd]

theorem cycle_isSome (m : Machine δ σ) : m.cycle.2.display.isSome = m.display.isSome := by
  rcases hout : m.cpu.step.outcome with e | flow
  · rw [cycle_of_error hout]
    rfl
  · cases flow with
    | next =>
        rw [cycle_of_next hout]
        rfl
    | cleared =>
        rw [cycle_of_cleared hout]
        exact m.executed.clearDisplay_isSome
    | awaitKey register =>
        rw [cycle_of_awaitKey hout]
        rfl

theorem present_isSome (m : Machine δ σ) : m.present.2.display.isSome = m.display.isSome := by
  by_cases hpending : m.cpu.drawPending = true
  · cases hd : m.display <;> simp [present, Cpu.takeDrawPending, hpending, renderDisplay, hd]
  · simp [present, Cpu.takeDrawPending, hpending]

/-- A frame neither takes the display away nor brings one. -/
theorem tick_isSome [SoundDevice σ] (m : Machine δ σ) :
    m.tick.2.display.isSome = m.display.isSome :=
  tick_keeps (P := fun m' => m'.display.isSome = m.display.isSome)
    (fun m' _ h => m'.cycle_isSome.trans h) (fun m' h => m'.present_isSome.trans h)
    (fun m' h => by rw [m'.finishFrame_spec.2.2.1, h]) rfl

end Attached

end Chip8.Machine
