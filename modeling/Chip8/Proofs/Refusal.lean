/-
**When a step fails.**

A program may do a lot of odd things, and the processor takes them in its stride: it reads past the
end of memory and goes on at the start, draws off the edge and comes back, and passes over words that
mean nothing.  Two things it refuses.  There is no slot for a seventeenth call, and nowhere to return
to from the outermost level.  Then the program counter is past the word, and nothing else has
happened: no slot was written and the depth is as before.

A decoder has a third reason to refuse, a first digit that selects no family of words.  All sixteen
digits select one, so it never comes to that.

Main definitions:

* `Chip8.Instruction.decode?` — decoding that refuses a word of no family;
* `Chip8.Cpu.stepOrRefuse` — a step with such a decoder.

Main results:

* `Chip8.Instruction.decode?_eq` — **every word belongs to a family**;
* `Chip8.Cpu.stepOrRefuse_eq` — so a step never stops at decoding;
* `Chip8.Cpu.step_fails_iff` — **when a step fails, and what it leaves behind**.
-/
import Chip8.Proofs.Encoding
import Chip8.Proofs.Step

set_option relaxedAutoImplicit false
set_option autoImplicit false

namespace Chip8

/-! ### Words of no family -/

namespace Instruction

/-- The instruction that a word encodes, if its first digit selects a family. -/
def decode? (word : UInt16) : Except Error Instruction :=
  match Word.first word with
  | 0x0 | 0x1 | 0x2 | 0x3 | 0x4 | 0x5 | 0x6 | 0x7
  | 0x8 | 0x9 | 0xa | 0xb | 0xc | 0xd | 0xe | 0xf => .ok (decode word)
  | _ => .error (.unknownOpcode word)

/-- **Every word belongs to a family.** -/
theorem decode?_eq (word : UInt16) : decode? word = .ok (decode word) := by
  have hfirst : Word.first word < 0x10 := by
    have hword := word.toNat_lt
    unfold Word.first
    omega
  unfold decode?
  split
  case h_17 =>
    simp only [imp_false] at *
    omega
  all_goals rfl

end Instruction

namespace Cpu

open Instruction (IsCall returnWord)

/-- Fetch the word at the program counter, move on, and execute the word unless it is refused. -/
def stepOrRefuse (c : Cpu) : Except Error Flow × Cpu :=
  match Instruction.decode? c.currentWord with
  | .ok instruction => { c with registers := c.registers.skip }.execute instruction
  | .error e => (.error e, { c with registers := c.registers.skip })

/-- A step never stops at decoding. -/
theorem stepOrRefuse_eq (c : Cpu) : c.stepOrRefuse = (c.step.outcome, c.step.cpu) := by
  rw [stepOrRefuse, Instruction.decode?_eq]
  rfl

/-! ### Calls and returns that are refused -/

variable {c : Cpu}

/-- A return with nowhere to return to. -/
def ReturnsFromOutside (c : Cpu) : Prop :=
  c.currentWord = returnWord ∧ c.registers.sp = 0

/-- A call with no slot to note the way back. -/
def CallsTooDeep (c : Cpu) : Prop :=
  IsCall c.currentWord ∧ c.registers.sp = 16

/-- The processor past a word that it did not execute. -/
def passed (c : Cpu) : Cpu :=
  { c with registers := { c.registers with pc := c.registers.pc + 2 } }

theorem step_of_returnsFromOutside (h : c.ReturnsFromOutside) :
    c.step.outcome = .error (.stackUnderflow (c.registers.pc + 2)) ∧ c.step.cpu = c.passed :=
  step_of_empty h.1 h.2

theorem step_of_callsTooDeep (h : c.CallsTooDeep) :
    c.step.outcome = .error (.stackOverflow (c.registers.pc + 2)) ∧ c.step.cpu = c.passed :=
  step_of_full h.1 (Nat.le_of_eq h.2.symm)

/-- Everything else succeeds. -/
theorem exists_flow (hsp : c.registers.sp ≤ 16) (hret : ¬ c.ReturnsFromOutside)
    (hcall : ¬ c.CallsTooDeep) : ∃ flow, c.step.outcome = .ok flow := by
  by_cases hcalls : IsCall c.currentWord
  · have hroom : c.registers.sp < 16 := by
      refine Nat.lt_of_le_of_ne hsp ?_
      intro hfull
      exact hcall ⟨hcalls, hfull⟩
    exact ⟨_, (step_of_call hcalls hroom).1⟩
  · by_cases hreturns : c.currentWord = returnWord
    · obtain ⟨n, hn⟩ := Nat.exists_eq_succ_of_ne_zero fun hempty => hret ⟨hreturns, hempty⟩
      exact ⟨_, (step_of_return hreturns hn).1⟩
    · exact (step_of_other hcalls hreturns).1

/-- A step fails for one of the two reasons, and tells which. -/
theorem step_error_iff (hsp : c.registers.sp ≤ 16) {e : Error} :
    c.step.outcome = .error e ↔
      c.ReturnsFromOutside ∧ e = .stackUnderflow (c.registers.pc + 2) ∨
        c.CallsTooDeep ∧ e = .stackOverflow (c.registers.pc + 2) := by
  constructor
  · intro hfails
    by_cases hret : c.ReturnsFromOutside
    · rw [(step_of_returnsFromOutside hret).1] at hfails
      exact .inl ⟨hret, (Except.error.inj hfails).symm⟩
    · by_cases hcall : c.CallsTooDeep
      · rw [(step_of_callsTooDeep hcall).1] at hfails
        exact .inr ⟨hcall, (Except.error.inj hfails).symm⟩
      · obtain ⟨flow, hok⟩ := exists_flow hsp hret hcall
        rw [hok] at hfails
        cases hfails
  · rintro (⟨hret, rfl⟩ | ⟨hcall, rfl⟩)
    · exact (step_of_returnsFromOutside hret).1
    · exact (step_of_callsTooDeep hcall).1

/-- **When a step fails, and what it leaves behind.**  Take any processor of which at most all stack
slots are in use.  Its next step fails exactly at a return from the outermost level and at a call
with all slots in use, and what it reports is the program counter behind that word.  The counter is
there already; but for it, nothing has changed.  And there is no word that would be refused for what
it is. -/
theorem step_fails_iff (hsp : c.registers.sp ≤ 16) :
    (∀ e, c.step.outcome = .error e ↔
        c.currentWord = 0x00ee ∧ c.registers.sp = 0 ∧ e = .stackUnderflow (c.registers.pc + 2) ∨
          c.currentWord.toNat / 0x1000 = 0x2 ∧ c.registers.sp = 16 ∧
            e = .stackOverflow (c.registers.pc + 2)) ∧
      (∀ e, c.step.outcome = .error e →
        c.step.cpu = { c with registers := { c.registers with pc := c.registers.pc + 2 } }) ∧
      c.stepOrRefuse = (c.step.outcome, c.step.cpu) ∧
      ∀ word, c.stepOrRefuse.1 ≠ .error (.unknownOpcode word) := by
  refine ⟨fun e => ?_, fun e hfails => ?_, c.stepOrRefuse_eq, fun word hrefused => ?_⟩
  · rw [step_error_iff hsp, ReturnsFromOutside, CallsTooDeep, and_assoc, and_assoc]
    rfl
  · obtain ⟨hret, -⟩ | ⟨hcall, -⟩ := (step_error_iff hsp).1 hfails
    · exact (step_of_returnsFromOutside hret).2
    · exact (step_of_callsTooDeep hcall).2
  · rw [stepOrRefuse_eq] at hrefused
    obtain ⟨-, hne⟩ | ⟨-, hne⟩ := (step_error_iff hsp).1 hrefused <;> cases hne

/-- A processor with all stack slots in use, about to call from the last two addresses there are. -/
def calledTooDeep : Cpu :=
  { new 0 with
    memory := (new 0).memory.writeBytes 0xfffe [0x23, 0x45]
    registers := { Registers.new with pc := 0xfffe, sp := 16 } }

/-- The counter that it reports has come round to the first address. -/
theorem step_fails_calledTooDeep :
    calledTooDeep.registers.sp ≤ 16 ∧ calledTooDeep.step.outcome = .error (.stackOverflow 0) ∧
      calledTooDeep.step.cpu.registers.pc = 0 ∧ calledTooDeep.step.cpu.registers.sp = 16 := by
  have hword : calledTooDeep.currentWord.toNat / 0x1000 = 0x2 := by decide +kernel
  have hsp : calledTooDeep.registers.sp ≤ 16 := Nat.le_refl 16
  obtain ⟨hfails, hleft, -, -⟩ := step_fails_iff hsp
  have houtcome := (hfails (.stackOverflow 0)).2 (.inr ⟨hword, rfl, rfl⟩)
  refine ⟨hsp, houtcome, ?_, ?_⟩
  · rw [hleft _ houtcome]
    rfl
  · rw [hleft _ houtcome]
    rfl

end Cpu

end Chip8
