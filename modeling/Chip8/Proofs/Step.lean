/-
**What one step can do.**

A step fetches a word, moves on and executes it.  Two families of words are special to the call
stack: calls, the words from `2000` to `2fff`, and the return `00ee`.  Only they move the stack
pointer, and only they can fault; every other word leaves the stack alone and succeeds.  This module
says so once, so that the theory of runs never has to look into the instructions again.

Main definitions:

* `Chip8.Instruction.IsCall`, `Chip8.Instruction.returnWord` — the words that call and the word that
  returns;
* `Chip8.Cpu.after` — the processor after a number of steps;
* `Chip8.Cpu.Proceeds` — the next step succeeds.

Main results:

* `Chip8.Instruction.decode_eq_call`, `Chip8.Instruction.isCall_of_decode`,
  `Chip8.Instruction.eq_returnWord_of_decode` — which words are calls and returns;
* `Chip8.Cpu.step_of_call`, `Chip8.Cpu.step_of_full`, `Chip8.Cpu.step_of_return`,
  `Chip8.Cpu.step_of_empty` — a call and a return, with and without room;
* `Chip8.Cpu.step_of_other` — every other word leaves the stack alone and succeeds;
* `Chip8.Cpu.movesStack_of_step`, `Chip8.Cpu.isFatal_of_step` — a step fails at a call or a return
  only, and then it fails for good.
-/
import Chip8.Cpu
import Chip8.Proofs.Words

set_option relaxedAutoImplicit false
set_option autoImplicit false

namespace Chip8

/-! ### Words that call and return -/

namespace Instruction

/-- A word from `2000` to `2fff`. -/
def IsCall (word : UInt16) : Prop :=
  word.toNat / 0x1000 = 2

instance (word : UInt16) : Decidable (IsCall word) :=
  inferInstanceAs (Decidable (word.toNat / 0x1000 = 2))

/-- The word that returns from a subroutine. -/
def returnWord : UInt16 :=
  0x00ee

theorem decode_eq_call {word : UInt16} (h : IsCall word) :
    decode word = .call (UInt16.ofNat (word.toNat % 0x1000)) := by
  have hw : word.toNat / 0x1000 = 2 := h
  simp [decode, hw]

theorem decode_returnWord : decode returnWord = .ret := rfl

/-- Only the words from `2000` to `2fff` are calls. -/
theorem isCall_of_decode {word target : UInt16} (h : decode word = .call target) :
    IsCall word :=
  digit_of_decode h rfl

/-- Only one word is a return. -/
theorem eq_returnWord_of_decode {word : UInt16} (h : decode word = .ret) : word = returnWord :=
  decode_eq_iff.1 h

end Instruction

/-! ### What an instruction leaves alone -/

namespace Registers

/-- Putting a byte into a register that exists. -/
theorem set_eq (r : Registers) {x : Nat} (hx : x < 16) (byte : UInt8) :
    r.set x byte = { r with v := r.v.set x byte } := by
  simp [set, Vector.setIfInBounds, Vector.set, Array.setIfInBounds, hx]

@[simp] theorem set_sp (r : Registers) (x : Nat) (byte : UInt8) : (r.set x byte).sp = r.sp := rfl

@[simp] theorem set_stack (r : Registers) (x : Nat) (byte : UInt8) :
    (r.set x byte).stack = r.stack := rfl

@[simp] theorem setFlag_sp (r : Registers) (on : Bool) : (r.setFlag on).sp = r.sp := rfl

@[simp] theorem setFlag_stack (r : Registers) (on : Bool) : (r.setFlag on).stack = r.stack := rfl

@[simp] theorem skip_sp (r : Registers) : r.skip.sp = r.sp := rfl

@[simp] theorem skip_stack (r : Registers) : r.skip.stack = r.stack := rfl

@[simp] theorem skip_pc (r : Registers) : r.skip.pc = r.pc + 2 := rfl

end Registers

namespace Cpu

/-- Loading from memory changes byte registers only. -/
theorem fillRegisters_eq (m : Memory) (r : Registers) (x : Nat) :
    fillRegisters m r x = { r with v := (fillRegisters m r x).v } := by
  suffices key : ∀ (numbers : List Nat) (r' : Registers),
      numbers.foldl (fun r' n => r'.set n (m.read (r.i + UInt16.ofNat n))) r' =
        { r' with
          v := (numbers.foldl (fun r' n => r'.set n (m.read (r.i + UInt16.ofNat n))) r').v } from
    key (List.range (x + 1)) r
  intro numbers
  -- the index register is read from the file at the beginning, not from the one that is filled
  induction numbers with
  | nil => exact fun _ => rfl
  | cons n numbers ih =>
      intro r'
      rw [List.foldl_cons, ih (r'.set n _)]
      rfl

theorem skipIf_sp (c : Cpu) (condition : Bool) :
    (c.skipIf condition).registers.sp = c.registers.sp := by
  cases condition <;> rfl

theorem skipIf_stack (c : Cpu) (condition : Bool) :
    (c.skipIf condition).registers.stack = c.registers.stack := by
  cases condition <;> rfl

/-- What an instruction other than a call and a return leaves alone: the stack.  And it succeeds. -/
theorem execute_of_ne {instruction : Instruction} (hcall : ∀ target, instruction ≠ .call target)
    (hret : instruction ≠ .ret) (c : Cpu) :
    (∃ flow, (c.execute instruction).1 = .ok flow) ∧
      (c.execute instruction).2.registers.sp = c.registers.sp ∧
      (c.execute instruction).2.registers.stack = c.registers.stack := by
  cases instruction
  case call target => exact absurd rfl (hcall target)
  case ret => exact absurd rfl hret
  case load x =>
      refine ⟨⟨_, rfl⟩, ?_, ?_⟩ <;> simp only [execute] <;> rw [fillRegisters_eq]
  all_goals
    refine ⟨⟨_, rfl⟩, ?_, ?_⟩ <;>
      simp [execute, skipIf_sp, skipIf_stack, draw, arithmetic, setWithFlag]

/-! ### A step, by the word -/

/-- A call with room on the stack notes where to go on, and jumps. -/
theorem step_of_call {c : Cpu} (hword : Instruction.IsCall c.currentWord)
    (hsp : c.registers.sp < 16) :
    c.step.outcome = .ok .next ∧
      c.step.cpu =
        { c with
          registers :=
            { c.registers with
              pc := UInt16.ofNat (c.currentWord.toNat % 0x1000)
              sp := c.registers.sp + 1
              stack := c.registers.stack.set c.registers.sp (c.registers.pc + 2) hsp } } := by
  rw [step_outcome, step_cpu, Instruction.decode_eq_call hword]
  simp [execute, Registers.push, Registers.skip, hsp]

/-- A call without room faults and has no effect but to have been passed. -/
theorem step_of_full {c : Cpu} (hword : Instruction.IsCall c.currentWord)
    (hsp : 16 ≤ c.registers.sp) :
    c.step.outcome = .error (.stackOverflow (c.registers.pc + 2)) ∧
      c.step.cpu = { c with registers := c.registers.skip } := by
  have hroom : ¬ c.registers.sp < 16 := Nat.not_lt.2 hsp
  rw [step_outcome, step_cpu, Instruction.decode_eq_call hword]
  simp [execute, Registers.push, hroom]

/-- A return goes on where the last call noted. -/
theorem step_of_return {c : Cpu} {n : Nat} (hword : c.currentWord = Instruction.returnWord)
    (hsp : c.registers.sp = n + 1) :
    c.step.outcome = .ok .next ∧
      c.step.cpu =
        { c with registers := { c.registers with pc := c.registers.stack.getD n 0, sp := n } } := by
  rw [step_outcome, step_cpu, hword, Instruction.decode_returnWord]
  simp [execute, Registers.pop, Registers.skip, hsp]

/-- A return at the outermost level faults and has no effect but to have been passed. -/
theorem step_of_empty {c : Cpu} (hword : c.currentWord = Instruction.returnWord)
    (hsp : c.registers.sp = 0) :
    c.step.outcome = .error (.stackUnderflow (c.registers.pc + 2)) ∧
      c.step.cpu = { c with registers := c.registers.skip } := by
  rw [step_outcome, step_cpu, hword, Instruction.decode_returnWord]
  simp [execute, Registers.pop, hsp]

/-- Every other word leaves the stack alone and succeeds. -/
theorem step_of_other {c : Cpu} (hcall : ¬ Instruction.IsCall c.currentWord)
    (hret : c.currentWord ≠ Instruction.returnWord) :
    (∃ flow, c.step.outcome = .ok flow) ∧ c.step.cpu.registers.sp = c.registers.sp ∧
      c.step.cpu.registers.stack = c.registers.stack := by
  rw [step_outcome, step_cpu]
  exact execute_of_ne (fun target h => hcall (Instruction.isCall_of_decode h))
    (fun h => hret (Instruction.eq_returnWord_of_decode h)) _

/-- A step fails at a call or a return only. -/
theorem movesStack_of_step {c : Cpu} {e : Error} (h : c.step.outcome = .error e) :
    Instruction.IsCall c.currentWord ∨ c.currentWord = Instruction.returnWord := by
  by_cases hcall : Instruction.IsCall c.currentWord
  · exact .inl hcall
  · by_cases hret : c.currentWord = Instruction.returnWord
    · exact .inr hret
    · obtain ⟨⟨flow, hok⟩, -⟩ := step_of_other hcall hret
      rw [hok] at h
      cases h

/-- A step that fails, fails for good. -/
theorem isFatal_of_step {c : Cpu} {e : Error} (h : c.step.outcome = .error e) :
    e.isFatal = true := by
  rcases movesStack_of_step h with hcall | hret
  · by_cases hsp : c.registers.sp < 16
    · rw [(step_of_call hcall hsp).1] at h
      cases h
    · rw [(step_of_full hcall (by omega)).1] at h
      cases h
      rfl
  · cases hsp : c.registers.sp with
    | zero =>
        rw [(step_of_empty hret hsp).1] at h
        cases h
        rfl
    | succ n =>
        rw [(step_of_return hret hsp).1] at h
        cases h

/-! ### Steps in a row -/

/-- The processor after a number of steps, whether they succeed or not. -/
def after (c : Cpu) : Nat → Cpu
  | 0 => c
  | n + 1 => (c.after n).step.cpu

/-- The next step succeeds. -/
def Proceeds (c : Cpu) : Prop :=
  ∃ flow, c.step.outcome = .ok flow

@[simp] theorem after_zero (c : Cpu) : c.after 0 = c := rfl

theorem after_succ (c : Cpu) (n : Nat) : c.after (n + 1) = (c.after n).step.cpu := rfl

/-- A step and then the rest. -/
theorem after_succ' (c : Cpu) (n : Nat) : c.after (n + 1) = c.step.cpu.after n := by
  induction n with
  | zero => rfl
  | succ n ih => rw [after_succ, ih, after_succ]

end Cpu

end Chip8
