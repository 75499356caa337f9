/-
**The course of a batch.**

A batch executes one instruction after another, until its time is over, the machine no longer runs
or something goes wrong.  To speak of each of these instructions, and not only of what they come to,
this module lists the states of the processor in which one is executed.  The list is what makes the
statements about batches inductive: a batch that goes on has the first state and then the course of
the rest.

Main definition:

* `Chip8.Machine.course` — the processor before each instruction of a batch, in order.

Main results:

* `Chip8.Machine.course_of_ok`, `Chip8.Machine.course_of_error`, `Chip8.Machine.course_cases` — the
  course of a batch, by how its first instruction ends;
* `Chip8.Machine.cpu_batch` — a batch takes the processor as many steps further as its course is
  long;
* `Chip8.Machine.instructions_batch`, `Chip8.Machine.instructions_tick_eq_course` — the journal
  notes the instructions of the course.
-/
import Chip8.Proofs.Pacing

set_option relaxedAutoImplicit false
set_option autoImplicit false

namespace Chip8.Machine

variable {δ σ : Type} [DisplayDevice δ]

/-- The processor before each instruction that a batch executes, in order. -/
def course : Nat → Machine δ σ → List Cpu
  | 0, _ => []
  | n + 1, m =>
    if m.isRunning then
      m.cpu ::
        match m.cycle with
        | (.ok (), m) => course n m
        | (.error _, _) => []
    else []

section

variable {m m₁ : Machine δ σ} {n : Nat}

/-- A machine that is not running executes nothing. -/
theorem course_of_not_running (h : m.isRunning = false) (n : Nat) : m.course n = [] := by
  cases n with
  | zero => rfl
  | succ n => simp [course, h]

/-- After an instruction that succeeds the batch goes on. -/
theorem course_of_ok (hrun : m.isRunning = true) (hcycle : m.cycle = (.ok (), m₁)) :
    m.course (n + 1) = m.cpu :: m₁.course n ∧ m.batch (n + 1) = m₁.batch n := by
  simp only [course, batch, if_pos hrun, hcycle, and_self]

/-- An instruction that fails is the last of its batch. -/
theorem course_of_error {e : Error} (hrun : m.isRunning = true)
    (hcycle : m.cycle = (.error e, m₁)) :
    m.course (n + 1) = [m.cpu] ∧ m.batch (n + 1) = (.error e, m₁) := by
  simp only [course, batch, if_pos hrun, hcycle, and_self]

/-- **What a batch does that has time for an instruction**: nothing, if the machine does not run; or
one instruction that fails; or one that succeeds, and then the rest. -/
theorem course_cases (m : Machine δ σ) (n : Nat) :
    (m.isRunning = false ∧ m.course (n + 1) = [] ∧ m.batch (n + 1) = (.ok (), m)) ∨
    (∃ e m₁, m.isRunning = true ∧ m.cycle = (.error e, m₁) ∧ m.course (n + 1) = [m.cpu] ∧
      m.batch (n + 1) = (.error e, m₁)) ∨
    ∃ m₁, m.isRunning = true ∧ m.cycle = (.ok (), m₁) ∧
      m.course (n + 1) = m.cpu :: m₁.course n ∧ m.batch (n + 1) = m₁.batch n := by
  by_cases hrun : m.isRunning = true
  · rcases hcycle : m.cycle with ⟨e | ⟨⟩, m₁⟩
    · exact .inr (.inl ⟨e, m₁, hrun, rfl, course_of_error hrun hcycle⟩)
    · exact .inr (.inr ⟨m₁, hrun, rfl, course_of_ok hrun hcycle⟩)
  · have hidle := Bool.eq_false_iff.2 hrun
    exact .inl ⟨hidle, course_of_not_running hidle _, batch_of_not_running hidle _⟩

end

/-- What an instruction makes of the processor is a step. -/
theorem cpu_cycle (m : Machine δ σ) : m.cycle.2.cpu = m.cpu.step.cpu :=
  m.cycle_executes.cpu

/-- **A batch takes the processor as many steps further as its course is long.** -/
theorem cpu_batch (n : Nat) (m : Machine δ σ) :
    (m.batch n).2.cpu = m.cpu.after (m.course n).length := by
  induction n generalizing m with
  | zero => rfl
  | succ n ih =>
      have hstep := m.cpu_cycle
      obtain ⟨-, hcourse, hbatch⟩ | ⟨e, m₁, -, hcycle, hcourse, hbatch⟩ |
        ⟨m₁, -, hcycle, hcourse, hbatch⟩ := m.course_cases n
      · rw [hcourse, hbatch]
        rfl
      · rw [hcycle] at hstep
        rw [hcourse, hbatch]
        exact hstep
      · rw [hcycle] at hstep
        rw [hcourse, hbatch, ih, hstep, List.length_cons, Cpu.after_succ']

/-- **The journal notes the instructions of the course.** -/
theorem instructions_batch (n : Nat) (m : Machine δ σ) :
    instructions (m.newEvents (m.batch n).2) =
      (m.course n).map fun c => .decode c.currentWord := by
  induction n generalizing m with
  | zero => exact (Adds.of_eq (m := m) rfl).instructions
  | succ n ih =>
      have hfirst := m.cycle_executes.adds
      have hnoted := hfirst.instructions
      obtain ⟨-, hcourse, hbatch⟩ | ⟨e, m₁, -, hcycle, hcourse, hbatch⟩ |
        ⟨m₁, -, hcycle, hcourse, hbatch⟩ := m.course_cases n
      · rw [hcourse, hbatch]
        exact (Adds.of_eq (m := m) rfl).instructions
      · rw [hcycle] at hnoted
        rw [hcourse, hbatch]
        exact hnoted
      · rw [hcycle] at hfirst hnoted
        obtain ⟨_, hrest⟩ := batch_executes n m₁
        rw [hcourse, hbatch, hfirst.newEvents_append hrest.adds, instructions_append, hnoted, ih]
        rfl

/-- What a frame executes is the course of its batch. -/
theorem instructions_tick_eq_course [SoundDevice σ] (m : Machine δ σ) :
    instructions (m.newEvents m.tick.2) =
      (m.course m.config.cyclesPerFrame).map fun c => .decode c.currentWord := by
  rw [instructions_tick, instructions_batch]

end Chip8.Machine
