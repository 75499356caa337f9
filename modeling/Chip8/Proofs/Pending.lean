/-
**What is remembered of a drawing.**

A step that draws remembers it, and showing the picture forgets it before it asks the display.  So
when the display fails, nothing remembers any more that there is a picture to show.  No later frame
shows it for its own sake: what a later frame shows is due to a drawing of its own, and then the old
sprites are in the picture because they are on the screen.

What is remembered within a frame is a disjunction over the words executed, and between frames
nothing is.

Main definitions:

* `Chip8.Instruction.isDraw` — the instructions that draw;
* `Chip8.Machine.AsksForPicture` — a frame asks the display for a picture.

Main results:

* `Chip8.Cpu.drawPending_after` — what a run of steps remembers;
* `Chip8.Machine.asksForPicture_iff` — when a frame asks for a picture;
* `Chip8.Machine.nothingPending_tick`, `Chip8.Machine.nothingPending_actAll` — after a frame nothing
  is remembered, whatever follows;
* `Chip8.Machine.picture_forgotten` — **a picture that failed is not asked for again until something
  is drawn**.
-/
import Chip8.Proofs.Fault
import Chip8.Proofs.Picture

set_option relaxedAutoImplicit false
set_option autoImplicit false

namespace Chip8

/-- Whether an instruction draws. -/
def Instruction.isDraw : Instruction → Bool
  | draw _ _ _ => true
  | _ => false

/-! ### Within a frame -/

namespace Cpu

theorem drawPending_execute (c : Cpu) (instruction : Instruction) :
    (c.execute instruction).2.drawPending = (c.drawPending || instruction.isDraw) := by
  cases instruction
  case draw x y height => exact (Bool.or_true _).symm
  case ret => rcases hpop : c.registers.pop with e | r <;> simp [execute, hpop, Instruction.isDraw]
  case call target =>
      rcases hpush : c.registers.push with e | r <;> simp [execute, hpush, Instruction.isDraw]
  case skipIfByte | skipUnlessByte | skipIfSame | skipUnlessSame | skipIfKey | skipUnlessKey =>
      simp [execute, skipIf_drawPending, Instruction.isDraw]
  all_goals simp [execute, Instruction.isDraw]

theorem drawPending_step (c : Cpu) :
    c.step.cpu.drawPending = (c.drawPending || (Instruction.decode c.currentWord).isDraw) :=
  drawPending_execute { c with registers := c.registers.skip } (.decode c.currentWord)

/-- Some steps later something is remembered if it was before or if one of the words draws. -/
theorem drawPending_after (c : Cpu) (n : Nat) :
    (c.after n).drawPending =
      (c.drawPending || ((c.words n).map .decode).any Instruction.isDraw) := by
  induction n with
  | zero => simp [words]
  | succ n ih =>
      rw [after_succ, drawPending_step, ih, words_succ, List.map_append, List.any_append,
        Bool.or_assoc]
      simp

end Cpu

namespace Machine

variable {δ σ : Type}

/-- The end of a frame leaves the screen alone, and what is remembered of it. -/
theorem finishFrame_picture [SoundDevice σ] (m : Machine δ σ) :
    m.finishFrame.2.cpu.screen = m.cpu.screen ∧
      m.finishFrame.2.cpu.drawPending = m.cpu.drawPending := by
  rw [m.finishFrame_spec.1]
  split
  · exact ⟨rfl, rfl⟩
  · exact ⟨rfl, rfl⟩

variable [DisplayDevice δ] [SoundDevice σ]

/-- The display is asked for a picture in the frame, and shows it or fails. -/
def AsksForPicture (m : Machine δ σ) : Prop :=
  renders (m.newEvents m.tick.2) ≠ []

instance (m : Machine δ σ) : Decidable m.AsksForPicture :=
  inferInstanceAs (Decidable (_ ≠ []))

/-- **A frame asks for a picture if there is a display to ask, and something was drawn**: before the
frame, and not shown since, or in the frame. -/
theorem asksForPicture_iff (m : Machine δ σ) :
    m.AsksForPicture ↔ m.display.isSome = true ∧
      (m.cpu.drawPending = true ∨ m.TickExecutes Instruction.isDraw) := by
  obtain ⟨steps, shown, -, hexecuted, hshown⟩ := m.tick_executes
  have hpending := m.cpu.drawPending_after steps
  rw [← hexecuted] at hpending
  rw [AsksForPicture, hshown, hpending, TickExecutes, ← List.any_eq_true, ← Bool.or_eq_true,
    ← Bool.and_eq_true, Bool.and_comm]
  split
  · rename_i hasks
    simp [hasks]
  · rename_i hnot
    simp [hnot]

/-- The picture that a frame asks for is the screen that it leaves. -/
theorem screen_of_mem_renders {m : Machine δ σ} {picture : List UInt8 × Bool}
    (h : picture ∈ renders (m.newEvents m.tick.2)) : picture.1 = m.tick.2.cpu.screen.pixels := by
  obtain ⟨steps, shown, hpresents, -, hshown⟩ := m.tick_executes
  have hpresented : m.presented.cpu.screen = (m.cpu.after steps).screen := by rw [hpresents.cpu]
  have hscreen : m.tick.2.cpu.screen = (m.cpu.after steps).screen :=
    tick_ends (P := fun m' => m'.cpu.screen = (m.cpu.after steps).screen) hpresented
      fun m' hm' => m'.finishFrame_picture.1.trans hm'
  rw [hshown] at h
  split at h
  · rw [List.mem_singleton.1 h, hscreen]
  · exact absurd h List.not_mem_nil

/-! ### From one frame to a later one -/

/-- A frame leaves nothing to be remembered, however it ends. -/
theorem nothingPending_tick (m : Machine δ σ) : m.tick.2.cpu.drawPending = false := by
  obtain ⟨steps, shown, hpresents, -⟩ := m.tick_executes
  have hpresented : m.presented.cpu.drawPending = false := by rw [hpresents.cpu]
  exact tick_ends (P := fun m' => m'.cpu.drawPending = false) hpresented
    fun m' hm' => m'.finishFrame_picture.2.trans hm'

/-- Nothing but work on the processor from outside makes a machine remember a drawing. -/
theorem nothingPending_act {m : Machine δ σ} (h : m.cpu.drawPending = false) {action : Action δ}
    (halter : ∀ cpu, action ≠ .alter cpu) : (m.act action).cpu.drawPending = false := by
  cases action with
  | tick => exact m.nothingPending_tick
  | reset => rfl
  | alter cpu => exact absurd rfl (halter cpu)
  | attach display => exact h
  | start => exact (Idle.start m).drawPending.trans h
  | stop => exact (Idle.stop m).drawPending.trans h
  | load program => exact h
  | loadFrom source => exact h
  | setKey key => exact (Idle.setKey m key).drawPending.trans h
  | unsetKey key => exact h
  | note record => exact h

theorem nothingPending_actAll {m : Machine δ σ} (h : m.cpu.drawPending = false)
    {actions : List (Action δ)} (halter : ∀ action ∈ actions, ∀ cpu, action ≠ .alter cpu) :
    (m.actAll actions).cpu.drawPending = false :=
  actAll_keeps (P := fun m => m.cpu.drawPending = false)
    (fun action hmem _ hm => nothingPending_act hm (halter action hmem)) h

/-- **A picture that failed is not asked for again until something is drawn.**  Say the display
fails at the picture of a frame.  The frame ends with that failure, and nothing remembers the
picture.  Whatever is done then, except to the processor from outside, the next frame asks for a
picture if and only if there is a display and the frame itself draws; and a picture it asks for is
the whole screen.
-/
theorem picture_forgotten {m : Machine δ σ} (hfails : m.FailsToRender) {later : List (Action δ)}
    (halter : ∀ action ∈ later, ∀ cpu, action ≠ .alter cpu) :
    (∃ failure, m.tick.1 = .error (.io failure)) ∧ m.tick.2.cpu.drawPending = false ∧
      let now := m.tick.2.actAll later
      now.cpu.drawPending = false ∧
        (now.AsksForPicture ↔ now.display.isSome = true ∧ now.TickExecutes Instruction.isDraw) ∧
        ∀ picture ∈ renders (now.newEvents now.tick.2),
          picture.1 = now.tick.2.cpu.screen.pixels := by
  have hafter := m.nothingPending_tick
  have hnow := nothingPending_actAll hafter halter
  refine ⟨hfails.io, hafter, hnow, ?_, fun _ => screen_of_mem_renders⟩
  have hasks := (m.tick.2.actAll later).asksForPicture_iff
  simpa [hnow] using hasks

/-- A machine with a program and a display that fails at its first picture. -/
def failingAtFirst (config : Config) (program : List UInt8) :
    Machine (FailingDisplay PictureLog) Mute :=
  (((new .mute config 0).attach (.new .new [1] [])).load program).start.2

/-- It draws, does something else and draws again, in one frame each. -/
def drawTwice : Machine (FailingDisplay PictureLog) Mute :=
  failingAtFirst { cyclesPerFrame := 1 } [0xd0, 0x05, 0x60, 0x00, 0xd0, 0x05]

/-- The frame after the failure does not ask for a picture, and the one after it does. -/
theorem picture_forgotten_drawTwice :
    drawTwice.FailsToRender ∧ drawTwice.tick.1 = .error (.io (.other "render failed")) ∧
      ¬ (drawTwice.tick.2.actAll []).AsksForPicture ∧
      (drawTwice.tick.2.actAll [.tick]).AsksForPicture := by
  obtain ⟨⟨⟨pixels, shown⟩, hmem, rfl⟩, hresult, hdisplay, hidle, hdraws⟩ :
      (∃ picture ∈ renders (drawTwice.newEvents drawTwice.tick.2), picture.2 = false) ∧
        drawTwice.tick.1 = .error (.io (.other "render failed")) ∧
        (drawTwice.tick.2.actAll [.tick]).display.isSome = true ∧
        ¬ drawTwice.tick.2.TickExecutes Instruction.isDraw ∧
        (drawTwice.tick.2.actAll [.tick]).TickExecutes Instruction.isDraw := by decide +kernel
  have hfails : drawTwice.FailsToRender := ⟨pixels, hmem⟩
  have hbetween : ∀ action ∈ [Action.tick (δ := FailingDisplay PictureLog)], ∀ cpu,
      action ≠ .alter cpu := by simp
  obtain ⟨-, -, -, hnone, -⟩ := picture_forgotten hfails (List.forall_mem_nil _)
  obtain ⟨-, -, -, hnext, -⟩ := picture_forgotten hfails hbetween
  exact ⟨hfails, hresult, fun hasks => hidle (hnone.1 hasks).2, hnext.2 ⟨hdisplay, hdraws⟩⟩

/-- It draws and then jumps to the same place for ever. -/
def drawThenLoop : Machine (FailingDisplay PictureLog) Mute :=
  failingAtFirst {} [0xd0, 0x05, 0x12, 0x02]

/-- The next frame succeeds, and so would its picture, but none is asked for: the screen is lit, and
the display has not shown anything. -/
theorem picture_lost_drawThenLoop :
    drawThenLoop.tick.1 = .error (.io (.other "render failed")) ∧
      drawThenLoop.tick.2.cpu.drawPending = false ∧
      let next := drawThenLoop.tick.2.tick
      next.1 = .ok () ∧ next.2.cpu.screen.isLit 0 0 = true ∧
        next.2.display.map (fun d => (d.renderCalls, d.inner)) = some (1, .new) := by
  decide +kernel

end Machine

end Chip8
