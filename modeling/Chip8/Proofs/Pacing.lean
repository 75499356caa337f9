/-
**The pace of a machine.**

How many instructions a frame has time for, and in how many frames the timers step, is a matter of
the settings.  A program can notice it in one way only, by reading the delay timer.  As long as it
does not, it gets equally far in three frames of two instructions and in two frames of three: the
frames are cut out of one sequence of steps, and what is done at the cuts, where the picture is shown
and the timers step, leaves all that a program works with alone.  A step that waits for a key or
faults ends the sequence for good, however much of its frame is left.

Two machines that are at the same point of a program are *abreast*.  An instruction keeps them
abreast, hence so does a batch.  A frame leaves a machine abreast of itself after the batch of that
frame alone, and batches in a row are one long batch.  So any number of frames leaves a machine
abreast of itself after one batch of all the instructions that they had time for.

The display must be one that can be cleared, for a failure to clear it ends a batch before its time.
Whether it shows its pictures, and what the sound device does, is all the same.

Main definitions:

* `Chip8.Instruction.readsTimer` — the instructions that read a timer;
* `Chip8.Cpu.Coincides` — the same processor but for the timers, and for what is still to be shown;
* `Chip8.AlwaysClears`, `Chip8.Machine.Clearable` — a display that can be cleared at any time;
* `Chip8.Machine.Abreast` — two machines at the same point of a program.

Main results:

* `Chip8.Cpu.Coincides.step` — the timers play no part in a step, unless it reads them;
* `Chip8.Machine.Clearable.batch_add` — two batches in a row are one;
* `Chip8.Machine.Abreast.batch`, `Chip8.Machine.Clearable.tick`, `Chip8.Machine.Abreast.frames` — a
  batch, a frame and frames in a row;
* `Chip8.Machine.coincides_of_equal_time` — **a program that reads no timer does not notice its
  pace**.
-/
import Chip8.Proofs.FrameNumber

set_option relaxedAutoImplicit false
set_option autoImplicit false

namespace Chip8

/-- Whether an instruction reads a timer. -/
def Instruction.readsTimer : Instruction → Bool
  | readDelay _ => true
  | _ => false

/-! ### Processors that differ in their timers -/

namespace Cpu

/-- All that a program works with is the same.  The timers may differ, and so may what is remembered
of a drawing. -/
structure Coincides (c d : Cpu) : Prop where
  registers : c.registers = d.registers
  memory : c.memory = d.memory
  screen : c.screen = d.screen
  keypad : c.keypad = d.keypad
  random : c.random = d.random

namespace Coincides

variable {c d : Cpu}

theorem refl (c : Cpu) : Coincides c c :=
  ⟨rfl, rfl, rfl, rfl, rfl⟩

theorem symm (h : Coincides c d) : Coincides d c :=
  ⟨h.registers.symm, h.memory.symm, h.screen.symm, h.keypad.symm, h.random.symm⟩

theorem trans {e : Cpu} (h : Coincides c d) (h' : Coincides d e) : Coincides c e :=
  ⟨h.registers.trans h'.registers, h.memory.trans h'.memory, h.screen.trans h'.screen,
    h.keypad.trans h'.keypad, h.random.trans h'.random⟩

theorem currentWord (h : Coincides c d) : c.currentWord = d.currentWord := by
  unfold Cpu.currentWord
  rw [h.memory, h.registers]

theorem skip (h : Coincides c d) :
    Coincides { c with registers := c.registers.skip } { d with registers := d.registers.skip } :=
  ⟨congrArg Registers.skip h.registers, h.memory, h.screen, h.keypad, h.random⟩

/-- Only one instruction reads a timer, and it reads nothing else. -/
theorem execute (h : Coincides c d) {instruction : Instruction}
    (hreads : instruction.readsTimer = false) :
    (c.execute instruction).1 = (d.execute instruction).1 ∧
      Coincides (c.execute instruction).2 (d.execute instruction).2 := by
  obtain ⟨memory, registers, screen, timers, keypad, random, pending⟩ := c
  obtain ⟨memory', registers', screen', timers', keypad', random', pending'⟩ := d
  obtain ⟨rfl, rfl, rfl, rfl, rfl⟩ := h
  cases instruction with
  | readDelay => cases hreads
  | ret =>
      rcases hpop : registers.pop with e | r
      · simp only [Cpu.execute, hpop]
        exact ⟨trivial, rfl, rfl, rfl, rfl, rfl⟩
      · simp only [Cpu.execute, hpop]
        exact ⟨trivial, rfl, rfl, rfl, rfl, rfl⟩
  | call target =>
      rcases hpush : registers.push with e | r
      · simp only [Cpu.execute, hpush]
        exact ⟨trivial, rfl, rfl, rfl, rfl, rfl⟩
      · simp only [Cpu.execute, hpush]
        exact ⟨trivial, rfl, rfl, rfl, rfl, rfl⟩
  | skipIfByte | skipUnlessByte | skipIfSame | skipUnlessSame | skipIfKey | skipUnlessKey =>
      simp only [Cpu.execute, Cpu.skipIf]
      split <;> exact ⟨trivial, rfl, rfl, rfl, rfl, rfl⟩
  | _ => exact ⟨rfl, rfl, rfl, rfl, rfl, rfl⟩

/-- **The timers play no part in a step**, unless it reads them. -/
theorem step (h : Coincides c d) (hreads : (Instruction.decode c.currentWord).readsTimer = false) :
    c.step.outcome = d.step.outcome ∧ Coincides c.step.cpu d.step.cpu := by
  rw [step_outcome, step_outcome, step_cpu, step_cpu, ← h.currentWord]
  exact h.skip.execute hreads

end Coincides

end Cpu

/-! ### Displays that can be cleared -/

/-- The states that a display gets into by being asked for things. -/
inductive DisplayReaches {δ : Type} [DisplayDevice δ] (d : δ) : δ → Prop where
  | refl : DisplayReaches d d
  | clear {d' : δ} (h : DisplayReaches d d') : DisplayReaches d (DisplayDevice.clear d').2
  | render {d' : δ} (pixels : List UInt8) (h : DisplayReaches d d') :
    DisplayReaches d (DisplayDevice.render d' pixels).2

/-- A display that can be cleared at any time, whatever it was asked for before. -/
def AlwaysClears {δ : Type} [DisplayDevice δ] (d : δ) : Prop :=
  ∀ d', DisplayReaches d d' → (DisplayDevice.clear d').1 = .ok ()

section Displays

variable {δ : Type} [DisplayDevice δ] {d d' : δ}

theorem DisplayReaches.trans {d'' : δ} (h : DisplayReaches d d') (h' : DisplayReaches d' d'') :
    DisplayReaches d d'' := by
  induction h' with
  | refl => exact h
  | clear _ ih => exact ih.clear
  | render pixels _ ih => exact ih.render pixels

theorem AlwaysClears.of_reaches (h : AlwaysClears d) (hreaches : DisplayReaches d d') :
    AlwaysClears d' :=
  fun _ hlater => h _ (hreaches.trans hlater)

end Displays

theorem alwaysClears_pictureLog (d : PictureLog) : AlwaysClears d :=
  fun _ _ => rfl

/-- A display in front of another one can be cleared if no failure to do so is planned and the one
behind it can. -/
theorem alwaysClears_failingDisplay {δ : Type} [DisplayDevice δ] {d : FailingDisplay δ}
    (hplan : d.failClear = []) (hinner : AlwaysClears d.inner) : AlwaysClears d := by
  have hreaches : ∀ d', DisplayReaches d d' →
      d'.failClear = [] ∧ DisplayReaches d.inner d'.inner := by
    intro d' h
    induction h with
    | refl => exact ⟨hplan, .refl⟩
    | @clear d' _ ih =>
        obtain ⟨hnone, hbehind⟩ := ih
        simp only [DisplayDevice.clear, hnone, List.not_mem_nil, if_false, true_and]
        exact hbehind.clear
    | @render d' pixels _ ih =>
        obtain ⟨hnone, hbehind⟩ := ih
        simp only [DisplayDevice.render]
        split
        · exact ⟨hnone, hbehind⟩
        · exact ⟨hnone, hbehind.render pixels⟩
  intro d' h
  obtain ⟨hnone, hbehind⟩ := hreaches d' h
  simp only [DisplayDevice.clear, hnone, List.not_mem_nil, if_false]
  exact hinner _ hbehind

namespace Machine

variable {δ σ : Type}

/-! ### Batches of a machine whose display can be cleared -/

section Clearable

variable [DisplayDevice δ]

/-- The display, if there is one, can be cleared at any time. -/
def Clearable (m : Machine δ σ) : Prop :=
  ∀ d, m.display = some d → AlwaysClears d

namespace Clearable

variable {m : Machine δ σ}

theorem of_display {m' : Machine δ σ} (h : m.Clearable) (hdisplay : m'.display = m.display) :
    m'.Clearable := by
  unfold Clearable
  rw [hdisplay]
  exact h

theorem clearDisplay (h : m.Clearable) :
    m.clearDisplay.1 = .ok () ∧ m.clearDisplay.2.Clearable := by
  cases hd : m.display with
  | none =>
      have hsame : m.clearDisplay = (.ok (), m) := by simp [Machine.clearDisplay, hd]
      rw [hsame]
      exact ⟨rfl, h⟩
  | some d =>
      have hclears := h d hd
      have hok : m.clearDisplay.1 = .ok () := by
        simp only [Machine.clearDisplay, hd, hclears d .refl]
        rfl
      have hdisplay : m.clearDisplay.2.display = some (DisplayDevice.clear d).2 := by
        simp [Machine.clearDisplay, hd]
      refine ⟨hok, fun d' hd' => ?_⟩
      rw [hdisplay] at hd'
      cases hd'
      exact hclears.of_reaches (.clear .refl)

theorem renderDisplay (h : m.Clearable) : m.renderDisplay.2.Clearable := by
  cases hd : m.display with
  | none => simpa [Machine.renderDisplay, hd] using h
  | some d =>
      have hdisplay : m.renderDisplay.2.display =
          some (DisplayDevice.render d m.cpu.screen.pixels).2 := by
        simp [Machine.renderDisplay, hd]
      intro d' hd'
      rw [hdisplay] at hd'
      cases hd'
      exact (h d hd).of_reaches (.render _ .refl)

theorem present (h : m.Clearable) : m.present.2.Clearable := by
  unfold Machine.present
  simp only
  split
  · exact renderDisplay (h.of_display rfl)
  · exact h.of_display rfl

end Clearable

/-- The run state after a step that executes a word and comes to this. -/
def stateAfter (state : RunState) (word : UInt16) : Except Error Flow → RunState
  | .ok .next | .ok .cleared => state
  | .ok (.awaitKey register) => .waitingForKey register
  | .error _ => .halted word

namespace Clearable

variable {m : Machine δ σ}

/-- An instruction is a step, and it fails only if the step does. -/
theorem cycle (h : m.Clearable) :
    m.cycle.1 = m.cpu.step.outcome.map (fun _ => ()) ∧ m.cycle.2.cpu = m.cpu.step.cpu ∧
      m.cycle.2.state = stateAfter m.state m.cpu.currentWord m.cpu.step.outcome ∧
      m.cycle.2.Clearable := by
  rcases hout : m.cpu.step.outcome with e | flow
  · rw [cycle_of_error hout]
    exact ⟨rfl, rfl, rfl, h⟩
  · cases flow with
    | next =>
        rw [cycle_of_next hout]
        exact ⟨rfl, rfl, rfl, h⟩
    | cleared =>
        have hexecuted : m.executed.Clearable := h
        have hasked := m.executed.clearDisplay_asked
        obtain ⟨hok, hclears⟩ := hexecuted.clearDisplay
        rw [cycle_of_cleared hout]
        exact ⟨hok, hasked.cpu, hasked.state, hclears⟩
    | awaitKey register =>
        rw [cycle_of_awaitKey hout]
        exact ⟨rfl, rfl, rfl, h⟩

/-- After an instruction that fails there is nothing left to do, so a batch may go on with it. -/
theorem batch_succ (h : m.Clearable) (hrun : m.isRunning = true) (n : Nat) :
    (m.batch (n + 1)).2 = (m.cycle.2.batch n).2 := by
  obtain ⟨hresult, -, hstate, -⟩ := h.cycle
  rw [batch, if_pos hrun]
  rcases hcycle : m.cycle with ⟨e | ⟨⟩, m₁⟩
  · rw [hcycle] at hresult hstate
    rcases hout : m.cpu.step.outcome with e' | flow
    · rw [hout] at hstate
      have hhalted : m₁.isRunning = false := by
        rw [isRunning, hstate]
        rfl
      rw [batch_of_not_running hhalted]
    · rw [hout] at hresult
      cases hresult
  · rfl

/-- A batch leaves the display clearable. -/
theorem batch (h : m.Clearable) (n : Nat) : (m.batch n).2.Clearable :=
  batch_keeps (P := Clearable) (fun _ _ hm => (cycle hm).2.2.2) n h

/-- **Two batches in a row are one.** -/
theorem batch_add (h : m.Clearable) (a b : Nat) :
    (m.batch (a + b)).2 = ((m.batch a).2.batch b).2 := by
  induction a generalizing m with
  | zero =>
      rw [Nat.zero_add]
      rfl
  | succ a ih =>
      by_cases hrun : m.isRunning = true
      · have hnext := h.cycle.2.2.2
        rw [Nat.add_right_comm, h.batch_succ hrun, h.batch_succ hrun]
        exact ih hnext
      · -- a machine that is not running executes nothing in either
        have hidle := fun n => batch_of_not_running (Bool.eq_false_iff.2 hrun) n
        rw [hidle, hidle, hidle]

end Clearable

end Clearable

/-! ### Machines abreast -/

section Abreast

variable {δ' σ' : Type} [DisplayDevice δ] [DisplayDevice δ']

/-- Two machines are at the same point of a program, and their displays can be cleared. -/
structure Abreast (m : Machine δ σ) (m' : Machine δ' σ') : Prop where
  cpu : m.cpu.Coincides m'.cpu
  state : m.state = m'.state
  clears : m.Clearable
  clears' : m'.Clearable

namespace Abreast

variable {m : Machine δ σ} {m' : Machine δ' σ'}

theorem refl (h : m.Clearable) : Abreast m m :=
  ⟨.refl _, rfl, h, h⟩

theorem symm (h : Abreast m m') : Abreast m' m :=
  ⟨h.cpu.symm, h.state.symm, h.clears', h.clears⟩

theorem trans {δ'' σ'' : Type} [DisplayDevice δ''] {m'' : Machine δ'' σ''} (h : Abreast m m')
    (h' : Abreast m' m'') : Abreast m m'' :=
  ⟨h.cpu.trans h'.cpu, h.state.trans h'.state, h.clears, h'.clears'⟩

theorem isRunning (h : Abreast m m') : m.isRunning = m'.isRunning := by
  rw [Machine.isRunning, Machine.isRunning, h.state]

theorem cycle (h : Abreast m m')
    (hreads : (Instruction.decode m.cpu.currentWord).readsTimer = false) :
    Abreast m.cycle.2 m'.cycle.2 := by
  obtain ⟨houtcome, hstep⟩ := h.cpu.step hreads
  obtain ⟨-, hcpu, hstate, hclears⟩ := h.clears.cycle
  obtain ⟨-, hcpu', hstate', hclears'⟩ := h.clears'.cycle
  refine ⟨?_, ?_, hclears, hclears'⟩
  · rw [hcpu, hcpu']
    exact hstep
  · rw [hstate, hstate', ← houtcome, ← h.state, ← h.cpu.currentWord]

/-- **A batch keeps machines abreast**, if no instruction of it reads a timer. -/
theorem batch (h : Abreast m m') {n : Nat}
    (hreads : ∀ instruction ∈ instructions (m.newEvents (m.batch n).2),
      instruction.readsTimer = false) :
    Abreast (m.batch n).2 (m'.batch n).2 := by
  induction n generalizing m m' with
  | zero => exact h
  | succ n ih =>
      by_cases hrun : m.isRunning = true
      · -- the first instruction, and then the batch that is left
        have hrun' : m'.isRunning = true := h.isRunning.symm.trans hrun
        obtain ⟨_, hrest⟩ := batch_executes n m.cycle.2
        have hadds := m.cycle_executes.adds.trans hrest.adds
        have hexecuted := m.cycle_executes.adds.newEvents_append hrest.adds
        rw [h.clears.batch_succ hrun] at hreads ⊢
        rw [h.clears'.batch_succ hrun']
        rw [hexecuted, instructions_append, m.cycle_executes.adds.instructions] at hreads
        obtain ⟨hfirst, hlater⟩ := List.forall_mem_append.1 hreads
        have hword := hfirst (.decode m.cpu.currentWord) (by simp [Cpu.words])
        exact ih (h.cycle hword) hlater
      · have hidle := Bool.eq_false_iff.2 hrun
        have hidle' : m'.isRunning = false := h.isRunning.symm.trans hidle
        rw [batch_of_not_running hidle, batch_of_not_running hidle']
        exact h

end Abreast

end Abreast

/-! ### Frames in a row -/

section Frames

variable [DisplayDevice δ] [SoundDevice σ]

/-- What a frame executes is what its batch does. -/
theorem instructions_tick (m : Machine δ σ) :
    instructions (m.newEvents m.tick.2) =
      instructions (m.newEvents (m.batch m.config.cyclesPerFrame).2) := by
  obtain ⟨_, hbatch⟩ := batch_executes m.config.cyclesPerFrame m
  have hpresented := hbatch.adds.trans (m.batch m.config.cyclesPerFrame).2.present_adds
  by_cases hthrough : m.GetsThrough
  · have hadds := hpresented.trans m.presented.finishFrame_adds
    rw [tick_of_getsThrough hthrough, hadds.instructions, hbatch.adds.instructions,
      List.append_nil, List.append_nil]
  · rw [tick_of_not_getsThrough hthrough, presented, hpresented.instructions,
      hbatch.adds.instructions, List.append_nil]

/-- What follows the batch of a frame leaves the machine where it is in its program. -/
theorem Clearable.tick {m : Machine δ σ} (h : m.Clearable) :
    Abreast (m.batch m.config.cyclesPerFrame).2 m.tick.2 := by
  have hbatch := h.batch m.config.cyclesPerFrame
  generalize hbatched : (m.batch m.config.cyclesPerFrame).2 = b at hbatch
  obtain ⟨_, hasked, -⟩ := b.present_spec
  refine tick_ends (P := fun m' => Abreast b m') ?_ ?_
  · rw [hbatched]
    refine ⟨?_, hasked.state.symm, hbatch, hbatch.present⟩
    rw [hasked.cpu]
    exact ⟨rfl, rfl, rfl, rfl, rfl⟩
  · intro m' hm'
    obtain ⟨hcpu, hstate, hdisplay, -⟩ := m'.finishFrame_spec
    refine hm'.trans ⟨?_, hstate.symm, hm'.clears', hm'.clears'.of_display hdisplay⟩
    rw [hcpu]
    split
    · exact ⟨rfl, rfl, rfl, rfl, rfl⟩
    · exact .refl _

end Frames

section Pace

variable {δ' σ' : Type} [DisplayDevice δ] [DisplayDevice δ'] [SoundDevice σ]

/-- **Frames in a row are one batch** of all the instructions that they have time for, as far as the
program goes. -/
theorem Abreast.frames {m : Machine δ σ} {m' : Machine δ' σ'} (h : Abreast m m') {n : Nat}
    (hreads : EveryFrame (fun now => ¬ now.TickExecutes Instruction.readsTimer) m
      (List.replicate n .tick)) :
    Abreast (m.actAll (List.replicate n .tick)) (m'.batch (n * m.config.cyclesPerFrame)).2 := by
  induction n with
  | zero =>
      rw [Nat.zero_mul]
      exact h
  | succ n ih =>
      rw [List.replicate_succ'] at hreads ⊢
      have hbefore := ih hreads.of_append
      have hlast := hreads (List.replicate n .tick) [] rfl
      have hconfig : (m.actAll (List.replicate n .tick)).config = m.config :=
        (actAll_frame_le fun action hmem => by simp [List.eq_of_mem_replicate hmem]).2
      rw [actAll_append, Nat.succ_mul, h.clears'.batch_add]
      generalize m.actAll (List.replicate n .tick) = now at hbefore hlast hconfig ⊢
      -- the last frame is its batch, and that is the last part of the long one
      have hframe := hbefore.clears.tick.symm
      rw [hconfig] at hframe
      refine hframe.trans (hbefore.batch fun instruction hmem => ?_)
      rw [← hconfig, ← instructions_tick] at hmem
      exact Bool.eq_false_iff.2 fun hreads => hlast ⟨instruction, hmem, hreads⟩

variable [SoundDevice σ']

/-- **A program that reads no timer does not notice its pace.**  Take two machines that are up to the
same and whose processors are equal but for their timers, with displays that can be cleared.  Let
each of them do frames of its own length, with timers that step at its own pace, until both had time
for the same number of instructions.  If neither read a timer, then they are still up to the same,
and their processors are still equal but for the timers, whether the program came to wait for a key,
faulted or ran through. -/
theorem coincides_of_equal_time {m : Machine δ σ} {m' : Machine δ' σ'} {n n' : Nat}
    (hcpu : m.cpu.Coincides m'.cpu) (hstate : m.state = m'.state) (hclears : m.Clearable)
    (hclears' : m'.Clearable)
    (htime : n * m.config.cyclesPerFrame = n' * m'.config.cyclesPerFrame)
    (hreads : EveryFrame (fun now => ¬ now.TickExecutes Instruction.readsTimer) m
      (List.replicate n .tick))
    (hreads' : EveryFrame (fun now => ¬ now.TickExecutes Instruction.readsTimer) m'
      (List.replicate n' .tick)) :
    let final := m.actAll (List.replicate n .tick)
    let final' := m'.actAll (List.replicate n' .tick)
    final.cpu.Coincides final'.cpu ∧ final.state = final'.state := by
  have habreast : Abreast m m' := ⟨hcpu, hstate, hclears, hclears'⟩
  -- both are abreast of the second machine after one long batch
  have hfinal := habreast.frames hreads
  have hfinal' := (Abreast.refl hclears').frames hreads'
  rw [htime] at hfinal
  have hboth := hfinal.trans hfinal'.symm
  exact ⟨hboth.cpu, hboth.state⟩

end Pace

/-- A running machine with a program that sets the delay timer, draws, clears the screen and waits
for a key, which is five instructions. -/
def fiveThenWait (display : δ) (sound : σ) (config : Config) (timers : Timers) : Machine δ σ :=
  let m := (((new sound config 0).attach display).load
    [0x60, 0x05, 0xf0, 0x15, 0xd0, 0x05, 0x00, 0xe0, 0xf3, 0x0a, 0x12, 0x00]).start.2
  { m with cpu := { m.cpu with timers := timers } }

/-- Two instructions in a frame, and the timers step in each. -/
def inTwos : Machine PictureLog Mute :=
  fiveThenWait .new .mute { cyclesPerFrame := 2, timerDivider := 1 } ⟨0, 0⟩

/-- Three instructions in a frame, and the timers step in every second one.  The display fails at its
first picture. -/
def inThrees : Machine (FailingDisplay PictureLog) BeepCount :=
  fiveThenWait (.new .new [1] []) ⟨0⟩ { cyclesPerFrame := 3, timerDivider := 2 } ⟨9, 9⟩

theorem coincides_inTwos_inThrees :
    (inTwos.actAll (List.replicate 3 .tick)).cpu.Coincides
        (inThrees.actAll (List.replicate 2 .tick)).cpu ∧
      (inTwos.actAll (List.replicate 3 .tick)).state = .waitingForKey 3 ∧
      (inThrees.actAll (List.replicate 2 .tick)).state = .waitingForKey 3 ∧
      (inTwos.actAll (List.replicate 3 .tick)).cpu.timers ≠
        (inThrees.actAll (List.replicate 2 .tick)).cpu.timers := by
  have hcpu : inTwos.cpu.Coincides inThrees.cpu := ⟨rfl, rfl, rfl, rfl, rfl⟩
  have hclears : inTwos.Clearable := fun d _ => alwaysClears_pictureLog d
  have hclears' : inThrees.Clearable := by
    intro d hd
    cases hd
    exact alwaysClears_failingDisplay rfl (alwaysClears_pictureLog _)
  obtain ⟨hreads, hreads', hwaits, htimers⟩ :
      EveryFrame (fun now => ¬ now.TickExecutes Instruction.readsTimer) inTwos
          (List.replicate 3 .tick) ∧
        EveryFrame (fun now => ¬ now.TickExecutes Instruction.readsTimer) inThrees
          (List.replicate 2 .tick) ∧
        (inTwos.actAll (List.replicate 3 .tick)).state = .waitingForKey 3 ∧
        (inTwos.actAll (List.replicate 3 .tick)).cpu.timers ≠
          (inThrees.actAll (List.replicate 2 .tick)).cpu.timers := by decide +kernel
  obtain ⟨hfinal, hstate⟩ := coincides_of_equal_time hcpu rfl hclears hclears' (by rfl)
    hreads hreads'
  exact ⟨hfinal, hwaits, hstate.symm.trans hwaits, htimers⟩

end Machine

end Chip8
