/-
**A reset machine is a new one.**

Whatever was done with a machine, a reset makes it forget: memory, registers, screen, timers and keys
are as in a new machine, and so are the run state and the count of frames.  One thing goes on where it
was, the stream of random bytes.  No program notices that unless it takes a byte.  So a machine that
was reset and a new one of the same settings do the same from then on, whatever is asked of them,
until an instruction takes a byte.

The two machines are compared step by step.  They *match* if they are equal but for their streams,
their devices and what they have noted.  A step that takes no byte keeps processors matching, and
reliable devices do not bring in a difference; so a batch keeps machines matching, by its course, and
so does everything else that is done with them.

A new machine has its programs and glyphs at their usual places, and nothing but a replacement of the
processor could change these places; a processor that is put in place of the old one must have them
there, too.

Main definitions:

* `Chip8.Cpu.Matches`, `Chip8.Machine.Matches` — equal but for the stream;
* `Chip8.Cpu.InPlace` — programs and glyphs are at their usual places;
* `Chip8.Machine.Twins` — matching machines of the same settings, both of them reliable;
* `Chip8.Control`, `Chip8.Machine.answers` — what is asked of both machines, and what they answer.

Main results:

* `Chip8.Machine.reset_reset` — a second reset changes nothing;
* `Chip8.Cpu.Matches.step` — the stream plays no part in a step, unless it takes a byte;
* `Chip8.Machine.Twins.batch`, `Chip8.Machine.Twins.tick` — a batch and a frame;
* `Chip8.Machine.Twins.control`, `Chip8.Machine.Twins.controlAll` — whatever is asked of them;
* `Chip8.Machine.reset_as_new` — **a reset erases all history but the stream**.
-/
import Chip8.Proofs.Replay
import Chip8.Proofs.Reliable
import Chip8.Proofs.WellFormed

set_option relaxedAutoImplicit false
set_option autoImplicit false

namespace Chip8

/-! ### Processors that differ in their streams -/

namespace Cpu

/-- Everything is the same but the stream of random bytes. -/
structure Matches (c d : Cpu) : Prop where
  memory : c.memory = d.memory
  registers : c.registers = d.registers
  screen : c.screen = d.screen
  timers : c.timers = d.timers
  keypad : c.keypad = d.keypad
  drawPending : c.drawPending = d.drawPending

namespace Matches

variable {c d : Cpu}

theorem currentWord (h : Matches c d) : c.currentWord = d.currentWord := by
  unfold Cpu.currentWord
  rw [h.memory, h.registers]

theorem skip (h : Matches c d) :
    Matches { c with registers := c.registers.skip } { d with registers := d.registers.skip } :=
  ⟨h.memory, congrArg Registers.skip h.registers, h.screen, h.timers, h.keypad, h.drawPending⟩

/-- Only one instruction looks at the stream. -/
theorem execute (h : Matches c d) {instruction : Instruction}
    (htakes : instruction.takesByte = false) :
    (c.execute instruction).1 = (d.execute instruction).1 ∧
      Matches (c.execute instruction).2 (d.execute instruction).2 := by
  obtain ⟨memory, registers, screen, timers, keypad, random, pending⟩ := c
  obtain ⟨memory', registers', screen', timers', keypad', random', pending'⟩ := d
  obtain ⟨rfl, rfl, rfl, rfl, rfl, rfl⟩ := h
  cases instruction with
  | random => cases htakes
  | ret =>
      rcases hpop : registers.pop with e | r
      · simp only [Cpu.execute, hpop]
        exact ⟨trivial, rfl, rfl, rfl, rfl, rfl, rfl⟩
      · simp only [Cpu.execute, hpop]
        exact ⟨trivial, rfl, rfl, rfl, rfl, rfl, rfl⟩
  | call target =>
      rcases hpush : registers.push with e | r
      · simp only [Cpu.execute, hpush]
        exact ⟨trivial, rfl, rfl, rfl, rfl, rfl, rfl⟩
      · simp only [Cpu.execute, hpush]
        exact ⟨trivial, rfl, rfl, rfl, rfl, rfl, rfl⟩
  | skipIfByte | skipUnlessByte | skipIfSame | skipUnlessSame | skipIfKey | skipUnlessKey =>
      simp only [Cpu.execute, Cpu.skipIf]
      split <;> exact ⟨trivial, rfl, rfl, rfl, rfl, rfl, rfl⟩
  | _ => exact ⟨rfl, rfl, rfl, rfl, rfl, rfl, rfl⟩

/-- **The stream plays no part in a step**, unless it takes a byte. -/
theorem step (h : Matches c d) (htakes : c.takesByte = false) :
    c.step.outcome = d.step.outcome ∧ Matches c.step.cpu d.step.cpu := by
  rw [step_outcome, step_outcome, step_cpu, step_cpu, ← h.currentWord]
  exact h.skip.execute ((takesByte_decode c).trans htakes)

end Matches

/-! ### The places of programs and glyphs -/

/-- Programs and glyphs are at their usual places. -/
structure InPlace (c : Cpu) : Prop where
  programAddr : c.memory.programAddr = Memory.defaultProgramAddr
  glyphAddr : c.memory.glyphAddr = Memory.defaultGlyphAddr

theorem InPlace.of_same {c d : Cpu} (h : c.InPlace)
    (hsame : d.memory.programAddr = c.memory.programAddr ∧
      d.memory.glyphAddr = c.memory.glyphAddr) : d.InPlace :=
  ⟨hsame.1.trans h.programAddr, hsame.2.trans h.glyphAddr⟩

theorem inPlace_new (seed : UInt64) : (new seed).InPlace :=
  ⟨(wellFormed_new seed).programAddr, (wellFormed_new seed).glyphAddr⟩

/-- What a memory is reset to depends on these places only. -/
theorem memory_reset {c d : Cpu} (h : c.InPlace) (h' : d.InPlace) :
    c.memory.reset = d.memory.reset := by
  obtain ⟨⟨cells, programAddr, glyphAddr⟩, _⟩ := c
  obtain ⟨⟨cells', programAddr', glyphAddr'⟩, _⟩ := d
  obtain ⟨rfl, rfl⟩ := h
  obtain ⟨rfl, rfl⟩ := h'
  rfl

end Cpu

theorem Memory.reset_reset (m : Memory) : m.reset.reset = m.reset := by
  obtain ⟨hprogram, hglyph⟩ := m.reset_addrs
  rw [reset, hprogram, hglyph, ← reset]

/-- A new memory is one that was reset. -/
theorem Memory.reset_new : Memory.new.reset = Memory.new :=
  Memory.reset_reset _

theorem Cpu.reset_reset (c : Cpu) : c.reset.reset = c.reset := by
  rw [reset, reset, Memory.reset_reset]

/-- Two processors match once they were reset. -/
theorem Cpu.matches_reset {c : Cpu} (h : c.InPlace) (seed : UInt64) :
    c.reset.Matches (.new seed) := by
  have hmemory := memory_reset h (inPlace_new seed)
  refine ⟨hmemory.trans Memory.reset_new, ?_, ?_, ?_, ?_, ?_⟩
  all_goals rw [reset]; rfl

namespace Machine

variable {δ σ κ ι : Type}

/-- **A second reset changes nothing**, but that it is noted. -/
theorem reset_reset (m : Machine δ σ) : m.reset.reset = m.reset.note .wasReset := by
  simp only [reset, note, Cpu.reset_reset]

/-! ### Places in a history -/

section Histories

variable [DisplayDevice δ] [SoundDevice σ]

/-- A frame leaves the places of programs and glyphs alone. -/
theorem inPlace_tick {m : Machine δ σ} (h : m.cpu.InPlace) : m.tick.2.cpu.InPlace := by
  refine tick_keeps (P := fun m' => m'.cpu.InPlace) ?_ ?_ ?_ h
  · intro m' _ hm'
    rw [cpu_cycle, Cpu.step_cpu]
    exact hm'.of_same (Cpu.execute_addrs { m'.cpu with registers := m'.cpu.registers.skip } _)
  · intro m' hm'
    obtain ⟨_, hasked, -⟩ := m'.present_spec
    rw [hasked.cpu]
    exact hm'.of_same ⟨rfl, rfl⟩
  · intro m' hm'
    rw [m'.finishFrame_spec.1]
    split
    · exact hm'.of_same ⟨rfl, rfl⟩
    · exact hm'

/-- Only a replacement of the processor can change the places of programs and glyphs. -/
theorem inPlace_act {action : Action δ} {m : Machine δ σ}
    (halter : ∀ cpu, action = .alter cpu → cpu.InPlace) (h : m.cpu.InPlace) :
    (m.act action).cpu.InPlace := by
  cases action with
  | start =>
      rw [act, start_cpu]
      exact h
  | stop =>
      simp only [act, Machine.stop]
      split <;> exact h
  | reset => exact h.of_same m.cpu.memory.reset_addrs
  | load program => exact h.of_same (m.cpu.memory.writeBytes_addrs program _)
  | loadFrom source =>
      rcases hread : source.readAll with failure | program
      · rw [act, loadFrom_of_error hread]
        exact h
      · rw [act, loadFrom_of_ok hread]
        exact h.of_same (Memory.writeBytes_addrs program m.cpu.memory _)
  | setKey key =>
      simp only [act, Machine.setKey]
      split
      · rw [start_cpu]
        exact h.of_same ⟨rfl, rfl⟩
      all_goals exact h.of_same ⟨rfl, rfl⟩
  | tick => exact inPlace_tick h
  | attach | unsetKey | note => exact h.of_same ⟨rfl, rfl⟩
  | alter cpu => exact halter cpu rfl

/-- No action changes the settings. -/
theorem config_act (action : Action δ) (m : Machine δ σ) : (m.act action).config = m.config := by
  by_cases hreset : action = .reset
  · rw [hreset, act, Machine.reset, note]
  · exact (act_frame_le hreset m).2

variable [FrameClock κ] [KeyDevice ι]

theorem config_interveneAll (m : Machine δ σ) (history : List (Intervention δ κ ι)) :
    (m.interveneAll history).config = m.config := by
  rw [interveneAll_eq_actAll]
  exact actAll_keeps (P := fun m' => m'.config = m.config)
    (fun action _ m' hm' => (config_act action m').trans hm') rfl

/-- Whatever was done with a new machine, programs and glyphs are at their usual places. -/
theorem inPlace_interveneAll (sound : σ) (config : Config) (entropy : UInt64)
    {history : List (Intervention δ κ ι)} (halter : ∀ cpu, .alter cpu ∈ history → cpu.InPlace) :
    ((new sound config entropy : Machine δ σ).interveneAll history).cpu.InPlace := by
  rw [interveneAll_eq_actAll]
  have hparts : ∀ intervention ∈ history, ∀ m : Machine δ σ, ∀ action ∈ intervention.actions m,
      ∀ cpu, action = .alter cpu → cpu.InPlace := by
    intro intervention hmem m action haction cpu heq
    cases intervention with
    | alter cpu' =>
        rw [List.mem_singleton.1 haction] at heq
        cases heq
        exact halter cpu hmem
    | operation operation =>
        exact absurd heq (ne_alter_of_mem_actions operation m action haction cpu)
  have hall := forall_mem_trace hparts (new sound config entropy : Machine δ σ)
  exact actAll_keeps (P := fun m' => m'.cpu.InPlace)
    (fun action hmem _ hm => inPlace_act (hall action hmem) hm) (Cpu.inPlace_new _)

end Histories

/-! ### Machines that match -/

section Twins

variable {δ' σ' : Type} [DisplayDevice δ] [DisplayDevice δ'] [SoundDevice σ] [SoundDevice σ']

/-- The machines are up to the same, have counted as many frames, and their processors match. -/
structure Matches (m : Machine δ σ) (m' : Machine δ' σ') : Prop where
  cpu : m.cpu.Matches m'.cpu
  state : m.state = m'.state
  frame : m.frame = m'.frame

/-- The machines match and have the same settings, and their devices never fail from now on. -/
structure Twins (m : Machine δ σ) (m' : Machine δ' σ') : Prop extends Matches m m' where
  config : m.config = m'.config
  reliable : m.Reliable
  reliable' : m'.Reliable

namespace Twins

variable {m n : Machine δ σ} {m' n' : Machine δ' σ'}

/-- To see that machines stay twins it is enough to look at what they do; the rest does not change. -/
theorem next (h : Twins m m') (hmatches : Matches n n') (hleads : Leads m n) (hleads' : Leads m' n')
    (hconfig : n.config = m.config) (hconfig' : n'.config = m'.config) : Twins n n' :=
  ⟨hmatches, hconfig.trans (h.config.trans hconfig'.symm), h.reliable.of_leads hleads,
    h.reliable'.of_leads hleads'⟩

theorem isRunning (h : Twins m m') : m.isRunning = m'.isRunning := by
  rw [Machine.isRunning, Machine.isRunning, h.state]

theorem cycle (h : Twins m m') (htakes : m.cpu.takesByte = false) :
    m.cycle.1 = m'.cycle.1 ∧ Twins m.cycle.2 m'.cycle.2 := by
  obtain ⟨houtcome, hstep⟩ := h.cpu.step htakes
  obtain ⟨hresult, hstate, -⟩ := h.reliable.cycle
  obtain ⟨hresult', hstate', -⟩ := h.reliable'.cycle
  have hexecutes := m.cycle_executes
  have hexecutes' := m'.cycle_executes
  refine ⟨?_, h.next ⟨?_, ?_, ?_⟩ m.leads_cycle m'.leads_cycle hexecutes.config hexecutes'.config⟩
  · rw [hresult, hresult', houtcome]
  · rw [cpu_cycle, cpu_cycle]
    exact hstep
  · rw [hstate, hstate', h.state, h.cpu.currentWord, houtcome]
  · rw [hexecutes.frame, hexecutes'.frame, h.frame]

/-- **A batch keeps twins twins**, if no instruction of it takes a byte, and it ends the same. -/
theorem batch {k : Nat} (h : Twins m m') (htakes : ∀ c ∈ m.course k, c.takesByte = false) :
    (m.batch k).1 = (m'.batch k).1 ∧ Twins (m.batch k).2 (m'.batch k).2 := by
  induction k generalizing m m' with
  | zero => exact ⟨rfl, h⟩
  | succ k ih =>
      obtain ⟨hidle, -, hbatch⟩ | ⟨e, m₁, hrun, hcycle, hcourse, hbatch⟩ |
        ⟨m₁, hrun, hcycle, hcourse, hbatch⟩ := m.course_cases k
      · rw [hbatch, batch_of_not_running (h.isRunning.symm.trans hidle)]
        exact ⟨rfl, h⟩
      · -- the other machine fails at the same instruction
        have hrun' : m'.isRunning = true := h.isRunning.symm.trans hrun
        rw [hcourse] at htakes
        obtain ⟨hresult, hnext⟩ := h.cycle (htakes _ (List.mem_cons_self ..))
        rcases hcycle' : m'.cycle with ⟨e' | ⟨⟩, m₁'⟩
        · rw [hcycle, hcycle'] at hresult hnext
          rw [hbatch, (course_of_error hrun' hcycle').2]
          exact ⟨hresult, hnext⟩
        · rw [hcycle, hcycle'] at hresult
          cases hresult
      · have hrun' : m'.isRunning = true := h.isRunning.symm.trans hrun
        rw [hcourse] at htakes
        obtain ⟨hfirst, hlater⟩ := List.forall_mem_cons.1 htakes
        obtain ⟨hresult, hnext⟩ := h.cycle hfirst
        rcases hcycle' : m'.cycle with ⟨e' | ⟨⟩, m₁'⟩
        · rw [hcycle, hcycle'] at hresult
          cases hresult
        · rw [hcycle, hcycle'] at hnext
          rw [hbatch, (course_of_ok hrun' hcycle').2]
          exact ih hnext hlater

theorem present (h : Twins m m') : Twins m.present.2 m'.present.2 := by
  obtain ⟨_, hasked, -⟩ := m.present_spec
  obtain ⟨_, hasked', -⟩ := m'.present_spec
  refine h.next ⟨?_, ?_, ?_⟩ m.leads_present m'.leads_present hasked.config hasked'.config
  · rw [hasked.cpu, hasked'.cpu]
    exact ⟨h.cpu.memory, h.cpu.registers, h.cpu.screen, h.cpu.timers, h.cpu.keypad, rfl⟩
  · rw [hasked.state, hasked'.state]
    exact h.state
  · rw [hasked.frame, hasked'.frame]
    exact h.frame

theorem timersDue (h : Twins m m') : m.timersDue = m'.timersDue := by
  rw [Machine.timersDue, Machine.timersDue, h.frame, h.config]

theorem finishFrame (h : Twins m m') : Twins m.finishFrame.2 m'.finishFrame.2 := by
  obtain ⟨hcpu, hstate, -⟩ := m.finishFrame_spec
  obtain ⟨hcpu', hstate', -⟩ := m'.finishFrame_spec
  obtain ⟨-, hframe⟩ := h.reliable.finishFrame
  obtain ⟨-, hframe'⟩ := h.reliable'.finishFrame
  refine h.next ⟨?_, ?_, ?_⟩ m.leads_finishFrame m'.leads_finishFrame m.finishFrame_frame.2.1
    m'.finishFrame_frame.2.1
  · rw [hcpu, hcpu', h.timersDue]
    split
    · refine ⟨h.cpu.memory, h.cpu.registers, h.cpu.screen, ?_, h.cpu.keypad, h.cpu.drawPending⟩
      exact congrArg (fun timers => timers.tick.2) h.cpu.timers
    · exact h.cpu
  · rw [hstate, hstate', h.state]
  · rw [hframe, hframe', h.frame]

/-- A frame whose picture is shown ends the way its batch does. -/
theorem tick_of_shown {m : Machine δ σ}
    (hshown : (m.batch m.config.cyclesPerFrame).2.present.1 = .ok ()) :
    (∀ e, (m.batch m.config.cyclesPerFrame).1 = .error e → m.tick = (.error e, m.presented)) ∧
      ((m.batch m.config.cyclesPerFrame).1 = .ok () → m.tick = m.presented.finishFrame) := by
  refine ⟨fun e hfault => ?_, fun hok => tick_of_ok hok hshown⟩
  unfold tick presented
  rcases hpresent : (m.batch m.config.cyclesPerFrame).2.present with ⟨e' | ⟨⟩, m₁⟩
  · rw [hpresent] at hshown
    cases hshown
  · simp only [hfault, hpresent]

/-- **A frame keeps twins twins**, if no instruction of it takes a byte, and it ends the same. -/
theorem tick (h : Twins m m') (htakes : ¬ m.TickExecutes Instruction.takesByte) :
    m.tick.1 = m'.tick.1 ∧ Twins m.tick.2 m'.tick.2 := by
  have hcourse : ∀ c ∈ m.course m.config.cyclesPerFrame, c.takesByte = false := by
    intro c hc
    refine Bool.eq_false_iff.2 fun hbyte => htakes ⟨.decode c.currentWord, ?_, ?_⟩
    · rw [instructions_tick_eq_course]
      exact List.mem_map_of_mem hc
    · exact (Cpu.takesByte_decode c).trans hbyte
  obtain ⟨hresult, hbatch⟩ : (m.batch m.config.cyclesPerFrame).1 =
      (m'.batch m'.config.cyclesPerFrame).1 ∧
        Twins (m.batch m.config.cyclesPerFrame).2 (m'.batch m'.config.cyclesPerFrame).2 := by
    rw [← h.config]
    exact h.batch hcourse
  have hpresented : Twins m.presented m'.presented := hbatch.present
  obtain ⟨hfault, hok⟩ := tick_of_shown hbatch.reliable.present
  obtain ⟨hfault', hok'⟩ := tick_of_shown hbatch.reliable'.present
  rcases hend : (m.batch m.config.cyclesPerFrame).1 with e | ⟨⟩
  · rw [hfault e hend, hfault' e (hresult.symm.trans hend)]
    exact ⟨rfl, hpresented⟩
  · rw [hok hend, hok' (hresult.symm.trans hend), hpresented.reliable.finishFrame.1,
      hpresented.reliable'.finishFrame.1]
    exact ⟨rfl, hpresented.finishFrame⟩

end Twins

end Twins

/-! ### What is asked of both machines -/

end Machine

/-- What a machine is asked for that depends on no device. -/
inductive Control where
  | start
  | stop
  | load (program : List UInt8)
  | setKey (key : UInt8)
  | unsetKey (key : UInt8)
  /-- A frame. -/
  | tick

/-- The same as an action on a machine. -/
def Control.action {δ : Type} : Control → Action δ
  | start => .start
  | stop => .stop
  | load program => .load program
  | setKey key => .setKey key
  | unsetKey key => .unsetKey key
  | tick => .tick

namespace Machine

variable {δ σ : Type} [DisplayDevice δ] [SoundDevice σ]

/-- What a machine answers. -/
def answer (m : Machine δ σ) : Control → Except Error Unit
  | .start => m.start.1
  | .setKey key => (m.setKey key).1
  | .tick => m.tick.1
  | .stop | .load _ | .unsetKey _ => .ok ()

/-- What a machine answers, one thing after another. -/
def answers (m : Machine δ σ) : List Control → List (Except Error Unit)
  | [] => []
  | control :: controls => m.answer control :: (m.act control.action).answers controls

/-- The machine after it was asked for things in a row. -/
def controlAll (m : Machine δ σ) (controls : List Control) : Machine δ σ :=
  m.actAll (controls.map Control.action)

section Twins

variable {δ' σ' : Type} [DisplayDevice δ'] [SoundDevice σ']

namespace Twins

variable {m : Machine δ σ} {m' : Machine δ' σ'}

theorem start (h : Twins m m') :
    m.start.1 = m'.start.1 ∧ Matches m.start.2 m'.start.2 := by
  have hattached := h.reliable.attached
  have hattached' := h.reliable'.attached
  have hcpu : m.start.2.cpu.Matches m'.start.2.cpu := by
    rw [start_cpu, start_cpu]
    exact h.cpu
  have hframe : m.start.2.frame = m'.start.2.frame := by
    rw [(Idle.start m).frame, (Idle.start m').frame, h.frame]
  cases hstate : m.state with
  | stopped | running =>
      have hstate' := h.state.symm.trans hstate
      obtain ⟨hok, hrunning, -⟩ := start_of_isSome hattached (by simp [hstate])
      obtain ⟨hok', hrunning', -⟩ := start_of_isSome hattached' (by simp [hstate'])
      exact ⟨hok.trans hok'.symm, hcpu, hrunning.trans hrunning'.symm, hframe⟩
  | waitingForKey register =>
      have hstate' := h.state.symm.trans hstate
      rw [start_of_waiting hattached hstate, start_of_waiting hattached' hstate']
      exact ⟨rfl, h.toMatches⟩
  | halted word =>
      have hstate' := h.state.symm.trans hstate
      rw [start_of_halted hattached hstate, start_of_halted hattached' hstate']
      exact ⟨rfl, h.toMatches⟩

theorem stop (h : Twins m m') : Matches m.stop m'.stop := by
  by_cases hrun : m.isRunning = true
  · have hrun' : m'.isRunning = true := h.isRunning.symm.trans hrun
    simp only [Machine.stop, if_pos hrun, if_pos hrun']
    exact ⟨h.cpu, rfl, h.frame⟩
  · have hidle := Bool.eq_false_iff.2 hrun
    have hidle' : m'.isRunning = false := h.isRunning.symm.trans hidle
    rw [stop_of_ne_running hidle, stop_of_ne_running hidle']
    exact h.toMatches

theorem setKey (h : Twins m m') (key : UInt8) :
    (m.setKey key).1 = (m'.setKey key).1 ∧ Matches (m.setKey key).2 (m'.setKey key).2 := by
  have hframe : (m.setKey key).2.frame = (m'.setKey key).2.frame := by
    rw [(Idle.setKey m key).frame, (Idle.setKey m' key).frame, h.frame]
  obtain ⟨hmemory, hregisters, hscreen, htimers, hkeypad, hpending⟩ := h.cpu
  cases hstate : m.state with
  | waitingForKey register =>
      have hstate' := h.state.symm.trans hstate
      obtain ⟨hok, hrunning, -, hcpu⟩ := setKey_of_waiting h.reliable.attached hstate key
      obtain ⟨hok', hrunning', -, hcpu'⟩ := setKey_of_waiting h.reliable'.attached hstate' key
      refine ⟨hok.trans hok'.symm, ?_, hrunning.trans hrunning'.symm, hframe⟩
      rw [hcpu, hcpu']
      exact ⟨hmemory, congrArg (fun r => r.set register key) hregisters, hscreen, htimers, hkeypad,
        hpending⟩
  | stopped | running | halted word =>
      have hstate' := h.state.symm.trans hstate
      rw [setKey_of_ne_waiting (m := m) (by simp [hstate]),
        setKey_of_ne_waiting (m := m') (by simp [hstate'])]
      exact ⟨rfl, ⟨hmemory, hregisters, hscreen, htimers, congrArg (fun k => k.press key) hkeypad,
        hpending⟩, h.state, h.frame⟩

theorem load (h : Twins m m') (program : List UInt8) :
    Matches (m.load program) (m'.load program) := by
  obtain ⟨hmemory, hregisters, hscreen, htimers, hkeypad, hpending⟩ := h.cpu
  exact ⟨⟨congrArg (fun memory => memory.load program) hmemory, hregisters, hscreen, htimers,
    hkeypad, hpending⟩, h.state, h.frame⟩

theorem unsetKey (h : Twins m m') (key : UInt8) :
    Matches (m.unsetKey key) (m'.unsetKey key) := by
  obtain ⟨hmemory, hregisters, hscreen, htimers, hkeypad, hpending⟩ := h.cpu
  exact ⟨⟨hmemory, hregisters, hscreen, htimers, congrArg (fun k => k.release key) hkeypad,
    hpending⟩, h.state, h.frame⟩

/-- **Whatever twins are asked for, they answer the same and stay twins**, if no instruction takes a
byte. -/
theorem control (h : Twins m m') {control : Control}
    (htakes : control = .tick → ¬ m.TickExecutes Instruction.takesByte) :
    m.answer control = m'.answer control ∧
      Twins (m.act control.action) (m'.act control.action) := by
  have hstays : Matches (m.act control.action) (m'.act control.action) →
      Twins (m.act control.action) (m'.act control.action) := by
    intro hmatches
    refine h.next hmatches (leads_act ?_ m) (leads_act ?_ m') (config_act _ m) (config_act _ m')
    all_goals cases control <;> simp [Control.action]
  cases control with
  | start => exact ⟨h.start.1, hstays h.start.2⟩
  | stop => exact ⟨rfl, hstays h.stop⟩
  | load program => exact ⟨rfl, hstays (h.load program)⟩
  | setKey key => exact ⟨(h.setKey key).1, hstays (h.setKey key).2⟩
  | unsetKey key => exact ⟨rfl, hstays (h.unsetKey key)⟩
  | tick => exact h.tick (htakes rfl)

/-- Twins answer the same, one thing after another, and at every point they are twins. -/
theorem controlAll {controls : List Control} (h : Twins m m')
    (htakes : EveryFrame (fun now => ¬ now.TickExecutes Instruction.takesByte) m
      (controls.map Control.action)) :
    m.answers controls = m'.answers controls ∧
      ∀ before, before <+: controls → Twins (m.controlAll before) (m'.controlAll before) := by
  induction controls generalizing m m' with
  | nil =>
      refine ⟨rfl, fun before hbefore => ?_⟩
      rw [List.prefix_nil.1 hbefore]
      exact h
  | cons control controls ih =>
      rw [List.map_cons, EveryFrame.cons_iff] at htakes
      obtain ⟨hfirst, hlater⟩ := htakes
      have hframe : control = .tick → ¬ m.TickExecutes Instruction.takesByte := by
        rintro rfl
        exact hfirst rfl
      obtain ⟨hanswer, hnext⟩ := h.control hframe
      obtain ⟨hanswers, hpoints⟩ := ih hnext hlater
      refine ⟨?_, fun before hbefore => ?_⟩
      · rw [answers, answers, hanswer, hanswers]
      · cases before with
        | nil => exact h
        | cons first before =>
            obtain ⟨rfl, hrest⟩ := List.cons_prefix_cons.1 hbefore
            exact hpoints before hrest

end Twins

/-- A reliable machine that is reset and a new one of the same settings are twins. -/
theorem twins_reset {m : Machine δ σ} (hplaces : m.cpu.InPlace) (hreliable : m.Reliable)
    {sound : σ'} {display : δ'} (hsounds : AlwaysSounds sound) (hshows : AlwaysShows display)
    (entropy : UInt64) : Twins m.reset ((new sound m.config entropy).attach display) := by
  have hleads : Leads m m.reset := .of_same m.reset_display m.reset_sound
  have hcpu := Cpu.matches_reset hplaces (m.config.seed.getD entropy)
  exact ⟨⟨hcpu, rfl, rfl⟩, config_act .reset m, hreliable.of_leads hleads,
    ⟨⟨display, rfl, hshows⟩, hsounds⟩⟩

variable {κ ι : Type} [FrameClock κ] [KeyDevice ι]

/-- **A reset erases all history but the stream of random bytes.**  Take a machine and whatever was
done with it, and let it have a display and devices that never fail from now on.  Reset it, and take a
new machine of the same settings with a display of its own, and devices that never fail either.  Ask
both for the same: to start, to stop, to load a program, to heed keys, to do frames.  As long as no
instruction takes a random byte, they answer the same, and at every point they are up to the same,
have counted as many frames and their processors are equal but for the stream.  And to reset the
machine once more right after it was reset changes nothing, but that it is noted. -/
theorem reset_as_new {sound : σ} {sound' : σ'} {config : Config} {entropy : UInt64}
    {display : δ'} {history : List (Intervention δ κ ι)} (entropy' : UInt64)
    (halter : ∀ cpu, .alter cpu ∈ history → cpu.InPlace)
    (hreliable : ((new sound config entropy : Machine δ σ).interveneAll history).Reliable)
    (hshows : AlwaysShows display) (hsounds : AlwaysSounds sound') :
    let m : Machine δ σ := ((new sound config entropy).interveneAll history).reset
    let fresh : Machine δ' σ' := (new sound' config entropy').attach display
    m.reset = m.note .wasReset ∧
      ∀ controls, EveryFrame (fun now => ¬ now.TickExecutes Instruction.takesByte) m
          (controls.map Control.action) →
        m.answers controls = fresh.answers controls ∧
          ∀ before, before <+: controls →
            Matches (m.controlAll before) (fresh.controlAll before) := by
  intro m fresh
  have hplaces := inPlace_interveneAll sound config entropy halter
  have hconfig := config_interveneAll (new sound config entropy : Machine δ σ) history
  refine ⟨reset_reset _, fun controls htakes => ?_⟩
  have htwins : Twins m fresh := by
    have hreset := twins_reset hplaces hreliable hsounds hshows entropy'
    rw [hconfig] at hreset
    exact hreset
  obtain ⟨hanswers, hpoints⟩ := htwins.controlAll htakes
  exact ⟨hanswers, fun before hbefore => (hpoints before hbefore).toMatches⟩

end Twins

/-- A program that takes a random byte and draws is run on a display that fails at its first picture.
Then a key is pressed, and the program goes on with a fault. -/
def rollAndFail : List (Intervention (FailingDisplay PictureLog) FrameCount ScriptedKeys) :=
  [.operation (.attach (.new .new [1] [])),
    .operation (.load [0xc0, 0xff, 0xd1, 0x25, 0x00, 0xee]), .operation .start, .operation .tick,
    .operation (.setKey 7), .operation .tick]

/-- A machine after that. -/
def failedOnce : Machine (FailingDisplay PictureLog) BeepCount :=
  (new ⟨0⟩ { cyclesPerFrame := 2 } 0).interveneAll rollAndFail

/-- A new machine. -/
def untouched : Machine PictureLog Mute :=
  (new .mute { cyclesPerFrame := 2 } 5).attach .new

/-- A program that draws the glyph of a key that it waits for. -/
def drawKey : List Control :=
  [.tick, .load [0xf1, 0x0a, 0xf1, 0x29, 0xd0, 0x05, 0x12, 0x06], .start, .tick, .setKey 9, .tick,
    .unsetKey 9, .tick]

/-- The fault, the key and the failure of the display are forgotten.  The place in the stream is
not. -/
theorem reset_as_new_drawKey :
    failedOnce.state = .halted 0x00ee ∧ failedOnce.cpu.random.taken = 1 ∧
      (failedOnce.reset.controlAll drawKey).Matches (untouched.controlAll drawKey) ∧
      (failedOnce.reset.controlAll drawKey).cpu.registers.get 1 = 9 ∧
      failedOnce.reset.answers drawKey = untouched.answers drawKey := by
  obtain ⟨hstate, htaken, hdisplay, htakes, hregister⟩ :
      failedOnce.state = .halted 0x00ee ∧ failedOnce.cpu.random.taken = 1 ∧
        failedOnce.display = some ⟨.new, 1, 0, [1], []⟩ ∧
        EveryFrame (fun now => ¬ now.TickExecutes Instruction.takesByte) failedOnce.reset
          (drawKey.map Control.action) ∧
        (failedOnce.reset.controlAll drawKey).cpu.registers.get 1 = 9 := by decide +kernel
  have hreliable : failedOnce.Reliable := by
    refine ⟨⟨_, hdisplay, alwaysShows_failingDisplay ?_ ?_ (alwaysShows_pictureLog _)⟩,
      alwaysSounds_beepCount _⟩ <;> simp
  have halter : ∀ cpu, .alter cpu ∈ rollAndFail → cpu.InPlace := by simp [rollAndFail]
  have hnew := reset_as_new 5 halter hreliable (alwaysShows_pictureLog .new)
    (alwaysSounds_mute .mute)
  obtain ⟨hanswers, hpoints⟩ := hnew.2 drawKey htakes
  exact ⟨hstate, htaken, hpoints drawKey (List.prefix_refl _), hregister, hanswers⟩

end Machine

end Chip8
