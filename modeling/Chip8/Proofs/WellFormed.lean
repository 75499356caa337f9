/-
**Well-formed states.**

The data of a machine admit states that no machine gets into: a stack pointer above the stack,
programs and glyphs in other places than usual, a wait for a key that is to go to a register that
does not exist.  Every operation keeps clear of them, whatever the program does and whatever the
devices fail at.  The same goes for the pictures that are shown: each of them has one byte for each
cell, zero or one.

Main definitions:

* `Chip8.Cpu.WellFormed` — the stack pointer is within bounds, programs and glyphs are in place;
* `Chip8.Screen.IsPicture` — the shape of a picture;
* `Chip8.Machine.WellFormed` — so is the processor, a wait for a key is for a register that exists,
  and every picture that was shown has its shape.

Main results:

* `Chip8.Cpu.WellFormed.step` — every step keeps a processor well-formed;
* `Chip8.Machine.wellFormed_invariant` — **every operation keeps a machine well-formed**.
-/
import Chip8.Proofs.CallStack
import Chip8.Proofs.Frame
import Chip8.Proofs.Operation

set_option relaxedAutoImplicit false
set_option autoImplicit false

namespace Chip8

/-! ### The places of programs and glyphs -/

theorem Memory.reset_addrs (m : Memory) :
    m.reset.programAddr = m.programAddr ∧ m.reset.glyphAddr = m.glyphAddr := by
  unfold reset
  exact writeBytes_addrs _ _ _

/-! ### The processor -/

namespace Cpu

/-- The stack pointer is within bounds, and programs and glyphs are at their usual places. -/
structure WellFormed (c : Cpu) : Prop where
  sp : c.registers.sp ≤ 16
  programAddr : c.memory.programAddr = Memory.defaultProgramAddr
  glyphAddr : c.memory.glyphAddr = Memory.defaultGlyphAddr

theorem WellFormed.reset {c : Cpu} (h : c.WellFormed) : c.reset.WellFormed := by
  obtain ⟨hprogram, hglyph⟩ := c.memory.reset_addrs
  refine ⟨Nat.zero_le 16, ?_, ?_⟩
  · rw [← h.programAddr, ← hprogram]
    rfl
  · rw [← h.glyphAddr, ← hglyph]
    rfl

theorem wellFormed_new (seed : UInt64) : (new seed).WellFormed := by
  obtain ⟨hprogram, hglyph⟩ := Memory.reset_addrs
    ⟨Vector.replicate 4096 0, Memory.defaultProgramAddr, Memory.defaultGlyphAddr⟩
  exact ⟨Nat.zero_le 16, hprogram, hglyph⟩

theorem WellFormed.load {c : Cpu} (h : c.WellFormed) (program : List UInt8) :
    (c.load program).WellFormed := by
  obtain ⟨hprogram, hglyph⟩ := Memory.writeBytes_addrs program c.memory c.memory.programAddr
  exact ⟨h.sp, hprogram.trans h.programAddr, hglyph.trans h.glyphAddr⟩

@[simp] theorem skipIf_memory (c : Cpu) (condition : Bool) :
    (c.skipIf condition).memory = c.memory := by
  unfold skipIf
  split <;> rfl

/-- No instruction moves programs or glyphs. -/
theorem execute_addrs (c : Cpu) (instruction : Instruction) :
    (c.execute instruction).2.memory.programAddr = c.memory.programAddr ∧
      (c.execute instruction).2.memory.glyphAddr = c.memory.glyphAddr := by
  cases instruction with
  | ret =>
      rcases hpop : c.registers.pop with e | r <;> simp [execute, hpop]
  | call target =>
      rcases hpush : c.registers.push with e | r <;> simp [execute, hpush]
  | decimal x => exact Memory.writeBytes_addrs _ _ _
  | store x => exact Memory.writeBytes_addrs _ _ _
  | _ => simp [execute, draw]

theorem WellFormed.step {c : Cpu} (h : c.WellFormed) : c.step.cpu.WellFormed := by
  obtain ⟨hprogram, hglyph⟩ :=
    execute_addrs { c with registers := c.registers.skip } (.decode c.currentWord)
  refine ⟨sp_step_le h.sp, ?_, ?_⟩
  · rw [step_cpu, hprogram]
    exact h.programAddr
  · rw [step_cpu, hglyph]
    exact h.glyphAddr

/-- Only the instruction that waits for a key waits for a key. -/
theorem eq_awaitKey_of_execute {c : Cpu} {instruction : Instruction} {register : Nat}
    (h : (c.execute instruction).1 = .ok (.awaitKey register)) :
    instruction = .awaitKey register := by
  cases instruction with
  | ret => rcases hpop : c.registers.pop with e | r <;> simp [execute, hpop] at h
  | call target => rcases hpush : c.registers.push with e | r <;> simp [execute, hpush] at h
  | awaitKey x =>
      simp only [execute, Except.ok.injEq, Flow.awaitKey.injEq] at h
      rw [h]
  | _ => simp [execute] at h

theorem register_lt_of_step {c : Cpu} {register : Nat}
    (h : c.step.outcome = .ok (.awaitKey register)) : register < 16 := by
  rw [step_outcome] at h
  have hoperands := Instruction.wellFormed_decode c.currentWord
  rw [eq_awaitKey_of_execute h] at hoperands
  exact hoperands

end Cpu

/-- A byte for each cell, zero or one. -/
def Screen.IsPicture (pixels : List UInt8) : Prop :=
  pixels.length = 2048 ∧ ∀ p ∈ pixels, p = 0 ∨ p = 1

theorem Screen.isPicture_pixels (s : Screen) : Screen.IsPicture s.pixels :=
  ⟨s.length_pixels, fun _ h => s.pixels_le_one h⟩

/-! ### The machine -/

namespace Machine

variable {δ σ : Type}

/-- The processor is well-formed, a wait for a key is for a register that exists, and every picture
that was shown has the shape of one. -/
structure WellFormed (m : Machine δ σ) : Prop where
  cpu : m.cpu.WellFormed
  waiting : ∀ register, m.state = .waitingForKey register → register < 16
  pictures : ∀ shown ∈ renders m.journal.toList, Screen.IsPicture shown.1

theorem wellFormed_new (sound : σ) (config : Config) (entropy : UInt64) :
    (new sound config entropy : Machine δ σ).WellFormed :=
  ⟨Cpu.wellFormed_new _, nofun, nofun⟩

/-- A machine is as well-formed as an earlier one if its processor and its run state are fit for it
and nothing was shown in between. -/
theorem WellFormed.of_noRender {m m' : Machine δ σ} (h : m.WellFormed) (hcpu : m'.cpu.WellFormed)
    (hstate : m'.state = m.state ∨ ∀ register, m'.state = .waitingForKey register → register < 16)
    (hquiet : NoRender m m') : m'.WellFormed := by
  refine ⟨hcpu, ?_, ?_⟩
  · rcases hstate with hsame | hfit
    · rw [hsame]
      exact h.waiting
    · exact hfit
  · obtain ⟨events, hnone, hevents⟩ := hquiet
    rw [hevents, renders_append, hnone, List.append_nil]
    exact h.pictures

theorem WellFormed.note {m : Machine δ σ} (h : m.WellFormed) (record : Record) :
    (m.note record).WellFormed :=
  h.of_noRender h.cpu (.inl rfl) (noRender_note m record)

theorem WellFormed.withCpu {m : Machine δ σ} (h : m.WellFormed) {cpu : Cpu}
    (hcpu : cpu.WellFormed) : { m with cpu := cpu }.WellFormed :=
  h.of_noRender hcpu (.inl rfl) (.of_eq rfl)

theorem WellFormed.withState {m : Machine δ σ} (h : m.WellFormed) (state : RunState)
    (hstate : ∀ register, state = .waitingForKey register → register < 16) :
    { m with state := state }.WellFormed :=
  h.of_noRender h.cpu (.inr hstate) (.of_eq rfl)

theorem WellFormed.start {m : Machine δ σ} (h : m.WellFormed) : m.start.2.WellFormed := by
  unfold Machine.start
  split
  · exact h
  · exact h
  · exact h
  · exact (h.withState .running nofun).note _
  · exact (h.withState .running nofun).note _

theorem WellFormed.stop {m : Machine δ σ} (h : m.WellFormed) : m.stop.WellFormed := by
  unfold Machine.stop
  split
  · exact (h.withState .stopped nofun).note _
  · exact h

theorem WellFormed.setKey {m : Machine δ σ} (h : m.WellFormed) (key : UInt8) :
    (m.setKey key).2.WellFormed := by
  unfold Machine.setKey
  split
  · rename_i register hstate
    have hcpu : { m.cpu with registers := m.cpu.registers.set register key }.WellFormed :=
      ⟨h.cpu.sp, h.cpu.programAddr, h.cpu.glyphAddr⟩
    exact (((h.withCpu hcpu).withState .stopped nofun).note _).start
  all_goals exact h.withCpu ⟨h.cpu.sp, h.cpu.programAddr, h.cpu.glyphAddr⟩

/-! ### A frame -/

theorem WellFormed.executed {m : Machine δ σ} (h : m.WellFormed) : m.executed.WellFormed :=
  h.of_noRender h.cpu.step (.inl rfl) (executed_noRender m)

theorem WellFormed.cycle [DisplayDevice δ] {m : Machine δ σ} (h : m.WellFormed) :
    m.cycle.2.WellFormed := by
  rcases hout : m.cpu.step.outcome with e | flow
  · rw [cycle_of_error hout]
    exact (h.executed.withState (.halted m.cpu.currentWord) nofun).note _
  · cases flow with
    | next =>
        rw [cycle_of_next hout]
        exact h.executed
    | cleared =>
        have hasked := m.executed.clearDisplay_asked
        rw [cycle_of_cleared hout]
        refine h.executed.of_noRender ?_ (.inl hasked.state) m.executed.clearDisplay_noRender
        rw [hasked.cpu]
        exact h.executed.cpu
    | awaitKey register =>
        rw [cycle_of_awaitKey hout]
        refine (h.executed.withState (.waitingForKey register) fun register' hsame => ?_).note _
        cases hsame
        exact Cpu.register_lt_of_step hout

theorem WellFormed.present [DisplayDevice δ] {m : Machine δ σ} (h : m.WellFormed) :
    m.present.2.WellFormed := by
  obtain ⟨events, hasked, hevents⟩ := m.present_spec
  have hcpu : m.present.2.cpu.WellFormed := by
    rw [hasked.cpu]
    exact ⟨h.cpu.sp, h.cpu.programAddr, h.cpu.glyphAddr⟩
  refine ⟨hcpu, ?_, ?_⟩
  · rw [hasked.state]
    exact h.waiting
  · -- a picture that was shown is an old one or the one on the screen
    intro shown hshown
    rw [hasked.journal, renders_append, List.mem_append] at hshown
    rcases hshown with hold | hnew
    · exact h.pictures shown hold
    · obtain ⟨hnone, -⟩ | hone := hevents
      · rw [hnone] at hnew
        cases hnew
      · rw [hone, List.mem_singleton] at hnew
        rw [hnew]
        exact m.cpu.screen.isPicture_pixels

theorem WellFormed.finishFrame [SoundDevice σ] {m : Machine δ σ} (h : m.WellFormed) :
    m.finishFrame.2.WellFormed := by
  obtain ⟨hcpu, hstate, -, hquiet⟩ := m.finishFrame_spec
  refine h.of_noRender ?_ (.inl hstate) hquiet
  rw [hcpu]
  split
  · exact ⟨h.cpu.sp, h.cpu.programAddr, h.cpu.glyphAddr⟩
  · exact h.cpu

theorem WellFormed.tick [DisplayDevice δ] [SoundDevice σ] {m : Machine δ σ} (h : m.WellFormed) :
    m.tick.2.WellFormed :=
  tick_keeps (fun _ _ hm => hm.cycle) (fun _ hm => hm.present) (fun _ hm => hm.finishFrame) h

/-! ### Everything that can be done -/

theorem WellFormed.reset {m : Machine δ σ} (h : m.WellFormed) : m.reset.WellFormed := by
  have hback : { m with cpu := m.cpu.reset, state := .stopped, frame := 0 }.WellFormed :=
    h.of_noRender h.cpu.reset (.inr nofun) (.of_eq rfl)
  exact hback.note .wasReset

theorem WellFormed.load {m : Machine δ σ} (h : m.WellFormed) (program : List UInt8) :
    (m.load program).WellFormed :=
  h.withCpu (h.cpu.load program)

theorem loadFrom_of_ok {source : ByteSource} {program : List UInt8}
    (h : source.readAll = .ok program) (m : Machine δ σ) :
    (m.loadFrom source).2 = m.load program := by
  simp [Machine.loadFrom, Cpu.loadFrom, Memory.loadFrom, Memory.writeFrom, h, Machine.load,
    Cpu.load, Memory.load]

theorem loadFrom_of_error {source : ByteSource} {failure : IoFailure}
    (h : source.readAll = .error failure) (m : Machine δ σ) : (m.loadFrom source).2 = m := by
  simp [Machine.loadFrom, Cpu.loadFrom, Memory.loadFrom, Memory.writeFrom, h]

theorem WellFormed.loadFrom {m : Machine δ σ} (h : m.WellFormed) (source : ByteSource) :
    (m.loadFrom source).2.WellFormed := by
  rcases hread : source.readAll with failure | program
  · rw [loadFrom_of_error hread]
    exact h
  · rw [loadFrom_of_ok hread]
    exact h.load program

theorem WellFormed.unsetKey {m : Machine δ σ} (h : m.WellFormed) (key : UInt8) :
    (m.unsetKey key).WellFormed :=
  h.withCpu ⟨h.cpu.sp, h.cpu.programAddr, h.cpu.glyphAddr⟩

theorem WellFormed.picture_of_mem_calls {m : Machine δ σ} (h : m.WellFormed) {pixels : List UInt8}
    (hshown : .render pixels ∈ m.calls) : Screen.IsPicture pixels := by
  obtain ⟨event, hevent, hcall⟩ := List.mem_filterMap.1 hshown
  cases event with
  | noted record => cases hcall
  | called call shown =>
      cases hcall
      exact h.pictures (pixels, shown) (List.mem_filterMap.2 ⟨_, hevent, rfl⟩)

/-- **Every operation keeps a machine well-formed.** -/
theorem wellFormed_invariant [DisplayDevice δ] [SoundDevice σ] :
    Invariant (WellFormed : Machine δ σ → Prop) where
  start := WellFormed.start
  stop := WellFormed.stop
  note record h := h.note record
  setKey key h := h.setKey key
  unsetKey key h := h.unsetKey key
  tick := WellFormed.tick
  attach _ h := h.of_noRender h.cpu (.inl rfl) (.of_eq rfl)
  reset := WellFormed.reset
  load program h := h.load program
  loadFrom source h := h.loadFrom source

end Machine

end Chip8
