/-
**The display shows the screen.**

Two ways lead from the screen of the processor to the display.  When the screen is cleared, the
display is cleared at once, in the middle of a batch of instructions.  When something is drawn, it is
only remembered, and the picture is shown once, after the batch.  A batch may draw and clear in any
order, it may begin to wait for a key or fault, and the sound device may fail after it.

Still, the display is never behind.  Within a batch it is up to date unless something is remembered,
and after the batch it is up to date.  What is done between frames leaves the screen alone, as long
as the machine is not reset, its display is not replaced and nothing works on its processor from
outside.

* `Chip8.PictureLog.Shows` — what a display was last shown is this screen;
* `Chip8.Cpu.screen_of_step` — a step clears the screen and says so, or else it leaves the screen
  alone or remembers that something was drawn;
* `Chip8.Machine.UpToDate`, `Chip8.Machine.InStep` — the invariants within a batch and between
  actions;
* `Chip8.Machine.UpToDate.cycle`, `Chip8.Machine.UpToDate.present` — an instruction keeps the one,
  and showing the picture makes the other of it;
* `Chip8.Machine.InStep.act` — every action that is not excluded keeps the display in step;
* `Chip8.Machine.lastFrame_shows` — **the display always shows the screen**.
-/
import Chip8.Device.Display
import Chip8.Device.Keys
import Chip8.Device.Clock
import Chip8.Device.Sound
import Chip8.Proofs.Attached

set_option relaxedAutoImplicit false
set_option autoImplicit false

namespace Chip8

/-! ### What a display shows -/

namespace PictureLog

/-- The last picture is this screen, cell for cell; a pixel that is missing counts as dark. -/
def Shows (d : PictureLog) (s : Screen) : Prop :=
  ∀ cell : Nat, d.lastFrame.getD cell 0 = s.pixels.getD cell 0

theorem getD_blank (cell : Nat) : Screen.blank.pixels.getD cell 0 = 0 := by
  have hdark : Screen.blank.pixels = List.replicate 2048 false.toUInt8 := by
    rw [Screen.pixels, Screen.blank, Vector.toList_replicate, List.map_replicate]
  rw [hdark, List.getD_eq_getElem?_getD, List.getElem?_replicate]
  split <;> rfl

theorem shows_render (d : PictureLog) (s : Screen) : (d.render s.pixels).Shows s :=
  fun _ => rfl

/-- A display that was cleared shows a dark screen, whatever it showed before. -/
theorem shows_clear (d : PictureLog) : d.clear.Shows .blank := by
  intro cell
  rw [getD_blank, clear, List.getD_eq_getElem?_getD, List.getElem?_map]
  cases d.lastFrame[cell]? <;> rfl

end PictureLog

/-! ### What a step does to the screen -/

namespace Cpu

theorem skipIf_screen (c : Cpu) (condition : Bool) : (c.skipIf condition).screen = c.screen := by
  cases condition <;> rfl

theorem skipIf_drawPending (c : Cpu) (condition : Bool) :
    (c.skipIf condition).drawPending = c.drawPending := by
  cases condition <;> rfl

/-- What an instruction may do to the screen, and to what is remembered of it. -/
inductive ScreenChange (screen : Screen) (pending : Bool) (c : Cpu) : Except Error Flow → Prop where
  | cleared (h : c.screen = .blank) : ScreenChange screen pending c (.ok .cleared)
  | drawn {outcome : Except Error Flow} (hne : outcome ≠ .ok .cleared) (h : c.drawPending = true) :
    ScreenChange screen pending c outcome
  | same {outcome : Except Error Flow} (hne : outcome ≠ .ok .cleared) (hscreen : c.screen = screen)
    (hpending : c.drawPending = pending) : ScreenChange screen pending c outcome

theorem screen_of_execute (c : Cpu) (instruction : Instruction) :
    ScreenChange c.screen c.drawPending (c.execute instruction).2 (c.execute instruction).1 := by
  cases instruction
  case clearScreen => exact .cleared rfl
  case draw x y height => exact .drawn (by simp [execute]) rfl
  case ret =>
      rcases hpop : c.registers.pop with e | r <;> simp only [execute, hpop]
      · exact .same (by simp) rfl rfl
      · exact .same (by simp) rfl rfl
  case call target =>
      rcases hpush : c.registers.push with e | r <;> simp only [execute, hpush]
      · exact .same (by simp) rfl rfl
      · exact .same (by simp) rfl rfl
  case skipIfByte | skipUnlessByte | skipIfSame | skipUnlessSame | skipIfKey | skipUnlessKey =>
      exact .same (by simp [execute]) (skipIf_screen _ _) (skipIf_drawPending _ _)
  all_goals exact .same (by simp [execute]) rfl rfl

/-- A step clears the screen and says so, or it remembers that something was drawn, or it leaves the
screen alone. -/
theorem screen_of_step (c : Cpu) :
    ScreenChange c.screen c.drawPending c.step.cpu c.step.outcome :=
  screen_of_execute { c with registers := c.registers.skip } (.decode c.currentWord)

theorem screen_of_cleared {c : Cpu} (h : c.step.outcome = .ok .cleared) :
    c.step.cpu.screen = .blank := by
  have hchange := c.screen_of_step
  rw [h] at hchange
  cases hchange with
  | cleared hblank => exact hblank
  | drawn hne => exact absurd rfl hne
  | same hne => exact absurd rfl hne

end Cpu

namespace Machine

variable {σ : Type}

/-! ### Within a batch -/

/-- The display shows the screen, unless something is remembered that it has to be shown. -/
def UpToDate (m : Machine PictureLog σ) : Prop :=
  ∃ d, m.display = some d ∧ (m.cpu.drawPending = false → d.Shows m.cpu.screen)

/-- The display shows the screen, and nothing is remembered. -/
def InStep (m : Machine PictureLog σ) : Prop :=
  m.cpu.drawPending = false ∧ ∃ d, m.display = some d ∧ d.Shows m.cpu.screen

theorem InStep.upToDate {m : Machine PictureLog σ} (h : m.InStep) : m.UpToDate := by
  obtain ⟨-, d, hd, hshows⟩ := h
  exact ⟨d, hd, fun _ => hshows⟩

namespace UpToDate

variable {m : Machine PictureLog σ}

/-- A step that does not clear the screen needs no display to stay up to date. -/
theorem executed (h : m.UpToDate) (hne : m.cpu.step.outcome ≠ .ok .cleared) :
    m.executed.UpToDate := by
  obtain ⟨d, hd, hshows⟩ := h
  have hchange := m.cpu.screen_of_step
  refine ⟨d, hd, fun hnothing => ?_⟩
  change m.cpu.step.cpu.drawPending = false at hnothing
  change d.Shows m.cpu.step.cpu.screen
  generalize m.cpu.step.outcome = outcome at hchange hne
  cases hchange with
  | cleared => exact absurd rfl hne
  | drawn _ hdrawn =>
      rw [hdrawn] at hnothing
      cases hnothing
  | same _ hscreen hpending =>
      rw [hscreen]
      exact hshows (hpending ▸ hnothing)

/-- An instruction leaves the display up to date. -/
theorem cycle (h : m.UpToDate) : m.cycle.2.UpToDate := by
  rcases hout : m.cpu.step.outcome with e | flow
  · rw [cycle_of_error hout]
    exact h.executed (by simp [hout])
  · cases flow with
    | next =>
        rw [cycle_of_next hout]
        exact h.executed (by simp [hout])
    | cleared =>
        -- something may be remembered from before, but then the dark picture is shown once more
        obtain ⟨d, hd, -⟩ := h
        have hcleared : m.cycle.2 = m.executed.clearDisplay.2 := by rw [cycle_of_cleared hout]
        have hblank : m.cycle.2.cpu.screen = .blank := by
          rw [hcleared, m.executed.clearDisplay_asked.cpu]
          exact Cpu.screen_of_cleared hout
        refine ⟨d.clear, ?_, fun _ => ?_⟩
        · rw [hcleared, clearDisplay, show m.executed.display = some d from hd]
          rfl
        · rw [hblank]
          exact d.shows_clear
    | awaitKey register =>
        rw [cycle_of_awaitKey hout]
        exact h.executed (by simp [hout])

/-- Showing the picture brings the display into step. -/
theorem present (h : m.UpToDate) : m.present.2.InStep := by
  obtain ⟨d, hd, hshows⟩ := h
  by_cases hpending : m.cpu.drawPending = true
  · have hpresent : m.present.2 = { m with cpu := m.cpu.takeDrawPending.2 }.renderDisplay.2 := by
      simp [Machine.present, Cpu.takeDrawPending, hpending]
    rw [hpresent, renderDisplay, show ({ m with cpu := m.cpu.takeDrawPending.2 } :
      Machine PictureLog σ).display = some d from hd]
    exact ⟨rfl, d.render m.cpu.screen.pixels, rfl, d.shows_render m.cpu.screen⟩
  · have hpresent : m.present.2 = { m with cpu := m.cpu.takeDrawPending.2 } := by
      simp [Machine.present, Cpu.takeDrawPending, hpending]
    rw [hpresent]
    exact ⟨rfl, d, hd, hshows (Bool.eq_false_iff.2 hpending)⟩

end UpToDate

/-! ### Between actions -/

namespace InStep

variable {m m' : Machine PictureLog σ}

theorem attached {display : PictureLog} (h : display.Shows .blank) (sound : σ) (config : Config)
    (entropy : UInt64) : ((Machine.new sound config entropy).attach display).InStep :=
  ⟨rfl, display, rfl, h⟩

/-- What neither draws nor changes the display leaves it in step. -/
theorem of_same (h : m.InStep) (hdisplay : m'.display = m.display)
    (hscreen : m'.cpu.screen = m.cpu.screen) (hpending : m'.cpu.drawPending = m.cpu.drawPending) :
    m'.InStep := by
  obtain ⟨hnothing, d, hd, hshows⟩ := h
  refine ⟨hpending.trans hnothing, d, hdisplay.trans hd, ?_⟩
  rw [hscreen]
  exact hshows

theorem start (h : m.InStep) : m.start.2.InStep :=
  h.of_same m.start_display (by rw [m.start_cpu]) (by rw [m.start_cpu])

theorem stop (h : m.InStep) : m.stop.InStep := by
  unfold Machine.stop
  split
  · exact h.of_same rfl rfl rfl
  · exact h

theorem setKey (h : m.InStep) (key : UInt8) : (m.setKey key).2.InStep := by
  cases hstate : m.state with
  | waitingForKey register =>
      obtain ⟨d, hd⟩ := h.2
      obtain ⟨-, -, hdisplay, hcpu⟩ := setKey_of_waiting (by rw [hd.1]; rfl) hstate key
      exact h.of_same hdisplay (by rw [hcpu]) (by rw [hcpu])
  | stopped | running | halted word =>
      rw [setKey_of_ne_waiting (by simp [hstate])]
      exact h.of_same rfl rfl rfl

variable [SoundDevice σ]

theorem finishFrame (h : m.InStep) : m.finishFrame.2.InStep := by
  obtain ⟨hcpu, -, hdisplay, -⟩ := m.finishFrame_spec
  refine h.of_same hdisplay ?_ ?_ <;> rw [hcpu] <;> split <;> rfl

/-- A frame ends with the display in step, however it ends. -/
theorem tick (h : m.InStep) : m.tick.2.InStep := by
  have hbatch : (m.batch m.config.cyclesPerFrame).2.UpToDate :=
    batch_keeps (fun _ _ hm => UpToDate.cycle hm) _ h.upToDate
  exact tick_ends hbatch.present fun _ hm => hm.finishFrame

end InStep

end Machine

/-- Neither does the action replace the display, nor does it reset the machine, nor does it work on
the processor from outside. -/
def Action.KeepsPicture {δ : Type} : Action δ → Prop
  | .attach _ | .reset | .alter _ => False
  | .start | .stop | .load _ | .loadFrom _ | .setKey _ | .unsetKey _ | .tick | .note _ => True

/-- An operation other than to attach a display and to reset. -/
def Intervention.KeepsPicture {δ κ ι : Type} : Intervention δ κ ι → Prop
  | .operation (.attach _) | .operation .reset | .alter _ => False
  | .operation _ => True

namespace Machine

variable {σ κ ι : Type} [SoundDevice σ] [FrameClock κ] [KeyDevice ι]

theorem InStep.act {m : Machine PictureLog σ} (h : m.InStep) {action : Action PictureLog}
    (hkeeps : action.KeepsPicture) : (m.act action).InStep := by
  cases action with
  | attach display => exact hkeeps.elim
  | start => exact h.start
  | stop => exact h.stop
  | reset => exact hkeeps.elim
  | load program => exact h.of_same rfl rfl rfl
  | loadFrom source => exact h.of_same rfl rfl rfl
  | setKey key => exact h.setKey key
  | unsetKey key => exact h.of_same rfl rfl rfl
  | tick => exact h.tick
  | note record => exact h.of_same rfl rfl rfl
  | alter cpu => exact hkeeps.elim

end Machine

end Chip8
