/-
**The replay of random bytes.**

A seed determines a stream of bytes.  A program gets at the stream by one family of words, those
from `c000` to `cfff`: each of them takes the next byte, and puts it into a register under a mask,
even if the mask lets nothing of it through.  Nothing else moves on in the stream.  Other words leave
it alone, and so does whatever is done between the steps; a reset, too, goes on where the stream was.

So it is the count of the random words executed before that tells which byte a random word gets,
however the steps are divided into frames, and whatever the devices make of them.  The argument
follows the list of the processors in which an instruction was executed: the stream is handed on from
each of them to the next one.

Main definitions:

* `Chip8.Instruction.IsRandom`, `Chip8.Cpu.takesByte` — the words that take a byte;
* `Chip8.Draws` — a list of steps hands the stream on, from one place in it to another;
* `Chip8.Cpu.Replays` — a step finds the stream at this place and takes the byte there, or none;
* `Chip8.Handling`, `Chip8.Deed` — what can be done with a processor directly, and with a machine;
* `Chip8.Cpu.stepsOf`, `Chip8.Machine.stepsOf` — the processor before each instruction that is
  executed.

Main results:

* `Chip8.Instruction.takesByte_decode`, `Chip8.Cpu.step_of_random`, `Chip8.Cpu.random_step` — the
  stream and a step;
* `Chip8.Draws.place_eq`, `Chip8.Draws.replays` — the place in the stream is a count;
* `Chip8.Cpu.draws_handleAll`, `Chip8.Machine.draws_undergoAll` — a history hands the stream on;
* `Chip8.Machine.random_replays` — **the bytes are replayed**.
-/
import Chip8.Proofs.Course
import Chip8.Proofs.KeyHistory
import Chip8.Proofs.Words

set_option relaxedAutoImplicit false
set_option autoImplicit false

namespace Chip8

/-! ### Words that take a byte -/

namespace Instruction

/-- A word from `c000` to `cfff`. -/
def IsRandom (word : UInt16) : Prop :=
  word.toNat / 0x1000 = 0xc

instance (word : UInt16) : Decidable (IsRandom word) :=
  inferInstanceAs (Decidable (word.toNat / 0x1000 = 0xc))

/-- Whether an instruction takes a random byte. -/
def takesByte : Instruction → Bool
  | random _ _ => true
  | _ => false

theorem decode_eq_random {word : UInt16} (h : IsRandom word) :
    decode word =
      .random (word.toNat / 0x100 % 0x10) (UInt8.ofNat (word.toNat % 0x100)) := by
  have hw : word.toNat / 0x1000 = 0xc := h
  simp [decode, hw]

/-- The words from `c000` to `cfff` take a byte, and no others do. -/
theorem takesByte_decode (word : UInt16) : (decode word).takesByte = decide (IsRandom word) := by
  by_cases hrandom : IsRandom word
  · rw [decode_eq_random hrandom, decide_eq_true hrandom]
    rfl
  · rw [decide_eq_false hrandom]
    cases hinstruction : decode word with
    | random x mask => exact absurd (digit_of_decode hinstruction rfl) hrandom
    | _ => rfl

end Instruction

namespace Cpu

/-- Whether the next step takes a random byte. -/
def takesByte (c : Cpu) : Bool :=
  decide (Instruction.IsRandom c.currentWord)

theorem takesByte_decode (c : Cpu) :
    (Instruction.decode c.currentWord).takesByte = c.takesByte :=
  Instruction.takesByte_decode c.currentWord

theorem skipIf_random (c : Cpu) (condition : Bool) : (c.skipIf condition).random = c.random := by
  cases condition <;> rfl

/-- A reset does not go back to the beginning of the stream. -/
theorem random_reset (c : Cpu) : c.reset.random = c.random := by
  rw [reset]

/-- An instruction that takes no byte leaves the stream alone. -/
theorem random_execute (c : Cpu) {instruction : Instruction}
    (h : instruction.takesByte = false) : (c.execute instruction).2.random = c.random := by
  cases instruction
  case random => cases h
  case ret => rcases hpop : c.registers.pop with e | r <;> simp only [execute, hpop]
  case call target => rcases hpush : c.registers.push with e | r <;> simp only [execute, hpush]
  case skipIfByte | skipUnlessByte | skipIfSame | skipUnlessSame | skipIfKey | skipUnlessKey =>
      exact c.skipIf_random _
  all_goals rfl

/-- **What a random word does**: it takes the next byte of the stream, and that goes to a register
under a mask. -/
theorem step_of_random {c : Cpu} (hword : Instruction.IsRandom c.currentWord) :
    c.step.outcome = .ok .next ∧
      c.step.cpu =
        { c with
          registers := c.registers.skip.set (c.currentWord.toNat / 0x100 % 0x10)
            (c.random.take.1 &&& UInt8.ofNat (c.currentWord.toNat % 0x100))
          random := c.random.take.2 } := by
  rw [step_outcome, step_cpu, Instruction.decode_eq_random hword]
  exact ⟨rfl, rfl⟩

/-- A step moves on in the stream by the byte that it takes. -/
theorem random_step (c : Cpu) :
    c.step.cpu.random = ⟨c.random.seed, c.random.taken + if c.takesByte then 1 else 0⟩ := by
  by_cases hword : Instruction.IsRandom c.currentWord
  · have htakes : c.takesByte = true := decide_eq_true hword
    rw [(step_of_random hword).2, if_pos htakes]
    rfl
  · have htakes : c.takesByte = false := decide_eq_false hword
    have hdecode := (takesByte_decode c).trans htakes
    rw [step_cpu, random_execute _ hdecode, htakes]
    rfl

/-- A step finds the stream of this seed at this place.  If it takes a byte, then the one there, and
the byte goes to its register under its mask; if it takes none, it leaves the stream alone. -/
structure Replays (seed : UInt64) (place : Nat) (c : Cpu) : Prop where
  found : c.random = ⟨seed, place⟩
  takes : c.takesByte = true →
    c.step.outcome = .ok .next ∧
      c.step.cpu.registers.get (c.currentWord.toNat / 0x100 % 0x10) =
        RandomStream.byteAt seed place &&& UInt8.ofNat (c.currentWord.toNat % 0x100) ∧
      c.step.cpu.random = ⟨seed, place + 1⟩
  passes : c.takesByte = false → c.step.cpu.random = c.random

theorem replays_of_random {c : Cpu} {seed : UInt64} {place : Nat} (h : c.random = ⟨seed, place⟩) :
    c.Replays seed place := by
  refine ⟨h, ?_, ?_⟩
  · intro htakes
    obtain ⟨houtcome, hcpu⟩ := step_of_random (of_decide_eq_true htakes)
    have hregister : c.currentWord.toNat / 0x100 % 0x10 < 16 := Nat.mod_lt _ (by decide)
    refine ⟨houtcome, ?_, ?_⟩
    · rw [hcpu, Registers.get_set_self _ hregister, RandomStream.take_fst, h]
    · rw [hcpu, RandomStream.take_snd, h]
  · intro htakes
    rw [random_step, htakes]
    rfl

end Cpu

/-! ### The stream is handed on -/

/-- These steps hand the stream on from one place in it to another: each finds it where the one
before left it. -/
inductive Draws : RandomStream → List Cpu → RandomStream → Prop where
  | nil (s : RandomStream) : Draws s [] s
  | cons {c : Cpu} {steps : List Cpu} {s : RandomStream} (h : Draws c.step.cpu.random steps s) :
    Draws c.random (c :: steps) s

namespace Draws

variable {s s₁ s₂ : RandomStream} {before after : List Cpu}

theorem of_eq (h : s₁ = s₂) : Draws s₁ [] s₂ :=
  h ▸ .nil s₁

theorem append (h : Draws s before s₁) (h' : Draws s₁ after s₂) :
    Draws s (before ++ after) s₂ := by
  induction h with
  | nil => exact h'
  | cons _ ih => exact .cons (ih h')

/-- **The place in the stream is a count** of the steps that took a byte. -/
theorem place_eq {steps : List Cpu} (h : Draws s steps s₁) :
    s₁ = ⟨s.seed, s.taken + steps.countP Cpu.takesByte⟩ := by
  induction h with
  | nil => rfl
  | @cons c steps _ _ ih =>
      rw [ih, Cpu.random_step, List.countP_cons, Nat.add_assoc, Nat.add_comm (steps.countP _)]

/-- A step finds the stream where the steps before it left it. -/
theorem found {c : Cpu} (h : Draws s (before ++ c :: after) s₁) : Draws s before c.random := by
  induction before generalizing s with
  | nil =>
      cases h
      exact .nil _
  | cons first before ih =>
      cases h with
      | cons hrest => exact .cons (ih hrest)

/-- **A step takes the byte that the steps before it have left for it**, if it takes one, and nothing
is taken but by the steps. -/
theorem replays {seed : UInt64} {steps : List Cpu} (h : Draws (.new seed) steps s) :
    s = ⟨seed, steps.countP Cpu.takesByte⟩ ∧
      ∀ before c after, steps = before ++ c :: after →
        c.Replays seed (before.countP Cpu.takesByte) := by
  have hplace : ∀ {before : List Cpu} {place : RandomStream}, Draws (.new seed) before place →
      place = ⟨seed, before.countP Cpu.takesByte⟩ := by
    intro before place hdraws
    rw [hdraws.place_eq, RandomStream.new, Nat.zero_add]
  refine ⟨hplace h, ?_⟩
  rintro before c after rfl
  exact Cpu.replays_of_random (hplace h.found)

end Draws

/-! ### Histories of a processor -/

/-- What can be done with a processor directly. -/
inductive Handling where
  | step
  | reset
  | load (program : List UInt8)
  | loadFrom (source : ByteSource)
  | takeDrawPending
  | setRegisters (registers : Registers)
  | setTimers (timers : Timers)
  | setKeypad (keypad : Keypad)

namespace Cpu

/-- The processor after something was done with it, whether that succeeded or not. -/
def handle (c : Cpu) : Handling → Cpu
  | .step => c.step.cpu
  | .reset => c.reset
  | .load program => c.load program
  | .loadFrom source => (c.loadFrom source).2
  | .takeDrawPending => c.takeDrawPending.2
  | .setRegisters registers => { c with registers := registers }
  | .setTimers timers => { c with timers := timers }
  | .setKeypad keypad => { c with keypad := keypad }

/-- What is noted about it. -/
def logOf (c : Cpu) : Handling → List Record
  | .step => c.step.log
  | _ => []

/-- The processor before the instruction that is executed, if one is. -/
def stepOf (c : Cpu) : Handling → List Cpu
  | .step => [c]
  | _ => []

/-- The processor after things in a row. -/
def handleAll (c : Cpu) (handlings : List Handling) : Cpu :=
  handlings.foldl handle c

/-- The processor before each instruction that is executed. -/
def stepsOf (c : Cpu) : List Handling → List Cpu
  | [] => []
  | handling :: handlings => c.stepOf handling ++ (c.handle handling).stepsOf handlings

/-- Only a step takes from the stream. -/
theorem draws_handle (c : Cpu) (handling : Handling) :
    Draws c.random (c.stepOf handling) (c.handle handling).random := by
  cases handling with
  | step => exact .cons (.nil _)
  | reset => exact .of_eq c.random_reset.symm
  | load | loadFrom | takeDrawPending | setRegisters | setTimers | setKeypad =>
      exact .of_eq rfl

/-- A history of a processor hands the stream on. -/
theorem draws_handleAll (handlings : List Handling) (c : Cpu) :
    Draws c.random (c.stepsOf handlings) (c.handleAll handlings).random := by
  induction handlings generalizing c with
  | nil => exact .nil _
  | cons handling handlings ih => exact (c.draws_handle handling).append (ih _)

end Cpu

/-! ### Histories of a machine -/

/-- What can be done with a machine: an operation, or something with its processor. -/
inductive Deed (δ κ ι : Type) where
  | operation (operation : Operation δ κ ι)
  | handling (handling : Handling)

namespace Machine

variable {δ σ κ ι : Type} [DisplayDevice δ]

/-- A batch hands the stream on by the steps of its course. -/
theorem draws_batch (n : Nat) (m : Machine δ σ) :
    Draws m.cpu.random (m.course n) (m.batch n).2.cpu.random := by
  induction n generalizing m with
  | zero => exact .nil _
  | succ n ih =>
      have hstep := m.cpu_cycle
      obtain ⟨-, hcourse, hbatch⟩ | ⟨e, m₁, -, hcycle, hcourse, hbatch⟩ |
        ⟨m₁, -, hcycle, hcourse, hbatch⟩ := m.course_cases n
      · rw [hcourse, hbatch]
        exact .nil _
      · rw [hcycle] at hstep
        rw [hcourse, hbatch]
        exact .cons (.of_eq (congrArg Cpu.random hstep.symm))
      · rw [hcycle] at hstep
        have hrest := ih m₁
        rw [hstep] at hrest
        rw [hcourse, hbatch]
        exact .cons hrest

variable [SoundDevice σ]

/-- What a frame does after its batch leaves the stream alone. -/
theorem random_tick (m : Machine δ σ) :
    m.tick.2.cpu.random = (m.batch m.config.cyclesPerFrame).2.cpu.random := by
  generalize hbatched : (m.batch m.config.cyclesPerFrame).2 = b
  refine tick_ends (P := fun m' => m'.cpu.random = b.cpu.random) ?_ ?_
  · obtain ⟨_, hasked, -⟩ := b.present_spec
    rw [hbatched, hasked.cpu]
    rfl
  · intro m' hm'
    rw [m'.finishFrame_spec.1, apply_ite Cpu.random]
    exact (ite_self _).trans hm'

/-- The processor before each instruction that an action executes. -/
def stepsOfAction (m : Machine δ σ) : Action δ → List Cpu
  | .tick => m.course m.config.cyclesPerFrame
  | _ => []

/-- Only a frame takes from the stream, unless the processor is replaced. -/
theorem draws_act {action : Action δ} (halter : ∀ cpu, action ≠ .alter cpu) (m : Machine δ σ) :
    Draws m.cpu.random (m.stepsOfAction action) (m.act action).cpu.random := by
  cases action with
  | tick =>
      have hbatch := m.draws_batch m.config.cyclesPerFrame
      rw [← random_tick] at hbatch
      exact hbatch
  | start => exact .of_eq (congrArg Cpu.random m.start_cpu).symm
  | stop =>
      refine .of_eq ?_
      simp only [act, Machine.stop]
      split <;> rfl
  | setKey key =>
      refine .of_eq ?_
      simp only [act, Machine.setKey]
      split
      · rw [start_cpu]
        rfl
      all_goals rfl
  | reset => exact .of_eq m.cpu.random_reset.symm
  | attach | load | loadFrom | unsetKey | note => exact .of_eq rfl
  | alter cpu => exact absurd rfl (halter cpu)

/-- A history of actions hands the stream on. -/
theorem draws_actAll {actions : List (Action δ)}
    (halter : ∀ action ∈ actions, ∀ cpu, action ≠ .alter cpu) (m : Machine δ σ) :
    Draws m.cpu.random (collect stepsOfAction m actions) (m.actAll actions).cpu.random := by
  induction actions generalizing m with
  | nil => exact .nil _
  | cons action actions ih =>
      obtain ⟨hfirst, hrest⟩ := List.forall_mem_cons.1 halter
      exact (m.draws_act hfirst).append (ih hrest _)

variable [FrameClock κ] [KeyDevice ι]

/-- No operation replaces the processor. -/
theorem ne_alter_of_mem_actions (operation : Operation δ κ ι) (m : Machine δ σ) :
    ∀ action ∈ (Intervention.operation operation).actions m, ∀ cpu, action ≠ .alter cpu := by
  intro action hmem cpu heq
  subst heq
  cases operation with
  | run limit clock keys => exact Console.ofRun_of_mem_actions _ hmem
  | attach | start | stop | reset | load | loadFrom | setKey | unsetKey | tick =>
      exact absurd (List.mem_singleton.1 hmem) (by simp)

/-- The machine after a deed, whether that succeeded or not. -/
def undergo (m : Machine δ σ) : Deed δ κ ι → Machine δ σ
  | .operation operation => m.perform operation
  | .handling handling => { m with cpu := m.cpu.handle handling }.noteAll (m.cpu.logOf handling)

/-- The machine after deeds in a row. -/
def undergoAll (m : Machine δ σ) (deeds : List (Deed δ κ ι)) : Machine δ σ :=
  deeds.foldl undergo m

/-- The processor before each instruction that a deed executes. -/
def stepsOfDeed (m : Machine δ σ) : Deed δ κ ι → List Cpu
  | .operation operation => collect stepsOfAction m ((Intervention.operation operation).actions m)
  | .handling handling => m.cpu.stepOf handling

/-- The processor before each instruction that deeds in a row execute. -/
def stepsOf (m : Machine δ σ) : List (Deed δ κ ι) → List Cpu
  | [] => []
  | deed :: deeds => m.stepsOfDeed deed ++ (m.undergo deed).stepsOf deeds

theorem draws_undergo (m : Machine δ σ) (deed : Deed δ κ ι) :
    Draws m.cpu.random (m.stepsOfDeed deed) (m.undergo deed).cpu.random := by
  cases deed with
  | operation operation =>
      have hactions := m.draws_actAll (ne_alter_of_mem_actions operation m)
      rw [← intervene_eq_actAll] at hactions
      exact hactions
  | handling handling => exact m.cpu.draws_handle handling

/-- A history of a machine hands the stream on. -/
theorem draws_undergoAll (deeds : List (Deed δ κ ι)) (m : Machine δ σ) :
    Draws m.cpu.random (m.stepsOf deeds) (m.undergoAll deeds).cpu.random := by
  induction deeds generalizing m with
  | nil => exact .nil _
  | cons deed deeds ih => exact (m.draws_undergo deed).append (ih _)

/-- **The bytes are replayed.**  Take a new processor, or a new machine, with a seed, and whatever is
done with it: for a machine its operations, runs and frames among them, with devices that may fail at
any time; and its processor may be stepped, reset, loaded and have its registers, timers and keys
overwritten directly.  List the instructions that were executed, each by the processor before it.  An
instruction of the list that takes a byte gets the one at the place of the stream that is the count
of those that took one before it in the list, and puts it into its register under its mask.  No other
instruction takes from the stream, and nothing else does: in the end as many bytes were taken as
instructions were executed that take one. -/
theorem random_replays (seed : UInt64) :
    (∀ handlings : List Handling,
      let start := Cpu.new seed
      (start.handleAll handlings).random =
          ⟨seed, (start.stepsOf handlings).countP Cpu.takesByte⟩ ∧
        ∀ before c after, start.stepsOf handlings = before ++ c :: after →
          c.Replays seed (before.countP Cpu.takesByte)) ∧
    ∀ (sound : σ) (config : Config) (entropy : UInt64) (deeds : List (Deed δ κ ι)),
      let start : Machine δ σ := new sound { config with seed := some seed } entropy
      (start.undergoAll deeds).cpu.random =
          ⟨seed, (start.stepsOf deeds).countP Cpu.takesByte⟩ ∧
        ∀ before c after, start.stepsOf deeds = before ++ c :: after →
          c.Replays seed (before.countP Cpu.takesByte) := by
  refine ⟨fun handlings => ?_, fun sound config entropy deeds => ?_⟩
  · exact ((Cpu.new seed).draws_handleAll handlings).replays
  · have hdraws := draws_undergoAll deeds
      (new sound { config with seed := some seed } entropy : Machine δ σ)
    exact hdraws.replays

end Machine

end Chip8
