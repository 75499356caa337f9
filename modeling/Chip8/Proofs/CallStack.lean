/-
**The call stack over whole runs.**

A subroutine may call others, jump about and rewrite its own code, and still it comes back to where
it was called from: between a call at depth `d` and the first return to depth `d`, slot `d` of the
stack keeps the address behind the call, and the slots below keep what they held.  Slots that fell
out of use keep stale values, which no return reads before a call has overwritten them.

The invariant is `Chip8.Cpu.OpenCall`: one step keeps it as long as the stack does not come down to
`d`, and so does a run of any length.  The stack pointer itself is a count: along a run of steps
that succeed it grows by the calls and shrinks by the returns among the words executed.

Main definitions:

* `Chip8.Cpu.OpenCall` — a call that has not returned yet;
* `Chip8.Cpu.words` — the words that a run executes.

Main results:

* `Chip8.Cpu.OpenCall.step`, `Chip8.Cpu.openCall_after` — a call stays open for as long as the stack
  is higher than before it;
* `Chip8.Cpu.sp_after_add_count`, `Chip8.Cpu.sp_after_le` — the stack pointer counts, within bounds;
* `Chip8.Cpu.lifo_of_run` — **the last call returns first**, over every run of steps that succeed.
-/
import Chip8.Proofs.Step

set_option relaxedAutoImplicit false
set_option autoImplicit false

namespace Chip8.Cpu

open Instruction (IsCall returnWord)

/-! ### A step that succeeds -/

/-- What a step that succeeds does to the stack: a call adds a slot, a return takes one off, and
nothing else touches it. -/
theorem Proceeds.stack_cases {c : Cpu} (h : c.Proceeds) :
    (IsCall c.currentWord ∧ ∃ hsp : c.registers.sp < 16,
        c.step.cpu.registers.sp = c.registers.sp + 1 ∧
        c.step.cpu.registers.stack =
          c.registers.stack.set c.registers.sp (c.registers.pc + 2) hsp) ∨
      (c.currentWord = returnWord ∧ ∃ n, c.registers.sp = n + 1 ∧
        c.step.cpu.registers.sp = n ∧ c.step.cpu.registers.stack = c.registers.stack ∧
        c.step.cpu.registers.pc = c.registers.stack.getD n 0) ∨
      (¬ IsCall c.currentWord ∧ c.currentWord ≠ returnWord ∧
        c.step.cpu.registers.sp = c.registers.sp ∧
        c.step.cpu.registers.stack = c.registers.stack) := by
  obtain ⟨flow, hok⟩ := h
  by_cases hcall : IsCall c.currentWord
  · by_cases hsp : c.registers.sp < 16
    · refine Or.inl ⟨hcall, hsp, ?_⟩
      rw [(step_of_call hcall hsp).2]
      exact ⟨rfl, rfl⟩
    · rw [(step_of_full hcall (by omega)).1] at hok
      cases hok
  · by_cases hret : c.currentWord = returnWord
    · cases hsp : c.registers.sp with
      | zero =>
          rw [(step_of_empty hret hsp).1] at hok
          cases hok
      | succ n =>
          refine Or.inr (Or.inl ⟨hret, n, rfl, ?_⟩)
          rw [(step_of_return hret hsp).2]
          exact ⟨rfl, rfl, rfl⟩
    · exact Or.inr (Or.inr ⟨hcall, hret, (step_of_other hcall hret).2⟩)

/-! ### A call that has not returned -/

/-- The processor `c` is at work in the subroutine that `c₀` called: the stack is higher than it
was, the slot of the call holds the address behind it, and the older slots hold what they held. -/
structure OpenCall (c₀ c : Cpu) : Prop where
  /-- The stack is higher than before the call. -/
  higher : c₀.registers.sp < c.registers.sp
  /-- The call left its return address. -/
  noted : c.registers.stack[c₀.registers.sp]? = some (c₀.registers.pc + 2)
  /-- The older slots are untouched. -/
  older : ∀ slot < c₀.registers.sp, c.registers.stack[slot]? = c₀.registers.stack[slot]?

/-- A call that succeeds is open. -/
theorem openCall_of_call {c : Cpu} (hword : IsCall c.currentWord) (h : c.Proceeds) :
    OpenCall c c.step.cpu := by
  obtain ⟨-, hsp, hsp', hstack⟩ | ⟨hret, -⟩ | ⟨hcall, -⟩ := h.stack_cases
  · constructor
    · omega
    · rw [hstack, Vector.getElem?_set_self]
    · intro slot hslot
      rw [hstack, Vector.getElem?_set_ne _ (by omega)]
  · rw [hret] at hword
    exact absurd hword (by decide)
  · exact absurd hword hcall

/-- A step keeps a call open unless the stack comes down to it. -/
theorem OpenCall.step {c₀ c : Cpu} (hopen : OpenCall c₀ c) (h : c.Proceeds)
    (hhigher : c₀.registers.sp < c.step.cpu.registers.sp) : OpenCall c₀ c.step.cpu := by
  obtain ⟨-, hsp, -, hstack⟩ | ⟨-, n, -, -, hstack, -⟩ | ⟨-, -, -, hstack⟩ := h.stack_cases
  · -- the new slot lies above the slot of the open call
    have hne := hopen.higher
    refine ⟨hhigher, ?_, ?_⟩
    · rw [hstack, Vector.getElem?_set_ne _ (by omega)]
      exact hopen.noted
    · intro slot hslot
      rw [hstack, Vector.getElem?_set_ne _ (by omega)]
      exact hopen.older slot hslot
  · exact ⟨hhigher, hstack ▸ hopen.noted, hstack ▸ hopen.older⟩
  · exact ⟨hhigher, hstack ▸ hopen.noted, hstack ▸ hopen.older⟩

/-- When the stack comes down to an open call, then by a return, and to the address behind the
call. -/
theorem OpenCall.back {c₀ c : Cpu} (hopen : OpenCall c₀ c) (h : c.Proceeds)
    (hback : c.step.cpu.registers.sp = c₀.registers.sp) :
    c.currentWord = returnWord ∧ c.step.cpu.registers.pc = c₀.registers.pc + 2 ∧
      ∀ slot < c₀.registers.sp,
        c.step.cpu.registers.stack[slot]? = c₀.registers.stack[slot]? := by
  have hhigher := hopen.higher
  obtain ⟨-, -, hsp', -⟩ | ⟨hret, n, hsp, hsp', hstack, hpc⟩ | ⟨-, -, hsp', -⟩ := h.stack_cases
  · omega
  · obtain rfl : n = c₀.registers.sp := by omega
    refine ⟨hret, ?_, hstack ▸ hopen.older⟩
    have hnoted := hopen.noted
    rw [Vector.getElem?_eq_some_iff] at hnoted
    obtain ⟨hlt, hvalue⟩ := hnoted
    rw [hpc, ← hvalue]
    simp [Vector.getD, hlt]
  · omega

/-- A call stays open along a run for as long as the stack is higher than before it. -/
theorem openCall_after {c : Cpu} (hword : IsCall c.currentWord) {n : Nat}
    (hrun : ∀ k < n, (c.after k).Proceeds)
    (hhigher : ∀ k, 0 < k → k < n → c.registers.sp < (c.after k).registers.sp) :
    ∀ k, 0 < k → k < n → OpenCall c (c.after k) := by
  intro k hpos hk
  -- the call opens it in the first step, and every later step keeps it open
  induction k with
  | zero => exact absurd hpos (by decide)
  | succ k ih =>
      rw [after_succ]
      rcases Nat.eq_zero_or_pos k with rfl | hk0
      · exact openCall_of_call hword (hrun 0 (by omega))
      · exact (ih hk0 (by omega)).step (hrun k (by omega)) (hhigher (k + 1) hpos hk)

/-! ### The stack pointer as a count -/

/-- The words that the next `n` steps execute. -/
def words (c : Cpu) (n : Nat) : List UInt16 :=
  (List.range n).map fun k => (c.after k).currentWord

theorem words_succ (c : Cpu) (n : Nat) :
    c.words (n + 1) = c.words n ++ [(c.after n).currentWord] := by
  simp [words, List.range_succ]

/-- **The stack pointer counts** the calls less the returns. -/
theorem sp_after_add_count {c : Cpu} {n : Nat} (hrun : ∀ k < n, (c.after k).Proceeds) :
    (c.after n).registers.sp + (c.words n).count returnWord =
      c.registers.sp + (c.words n).countP IsCall := by
  induction n with
  | zero => rfl
  | succ n ih =>
      have hn := ih fun k hk => hrun k (by omega)
      rw [after_succ, words_succ, List.count_append, List.countP_append]
      obtain ⟨hcall, -, hsp, -⟩ | ⟨hret, m, hsp, hsp', -⟩ | ⟨hcall, hret, hsp, -⟩ :=
        (hrun n (by omega)).stack_cases
      · -- a call is no return, so the last word counts on one side only
        have hne : (c.after n).currentWord ≠ returnWord := by
          rintro hret
          rw [hret] at hcall
          exact absurd hcall (by decide)
        simp [hcall, hne]
        omega
      · have hcall : ¬ IsCall returnWord := by decide
        simp [hret, hcall]
        omega
      · simp [hcall, hret]
        omega

/-- No step takes the stack pointer out of its bounds, whether it succeeds or not. -/
theorem sp_step_le {c : Cpu} (hsp : c.registers.sp ≤ 16) : c.step.cpu.registers.sp ≤ 16 := by
  by_cases hcall : IsCall c.currentWord
  · rcases Nat.lt_or_eq_of_le hsp with hlt | heq
    · rw [(step_of_call hcall hlt).2]
      exact hlt
    · rw [(step_of_full hcall (by omega)).2]
      exact hsp
  · by_cases hret : c.currentWord = returnWord
    · cases hn : c.registers.sp with
      | zero =>
          rw [(step_of_empty hret hn).2]
          exact hsp
      | succ n =>
          rw [(step_of_return hret hn).2]
          simp only
          omega
    · rw [(step_of_other hcall hret).2.1]
      exact hsp

theorem sp_after_le {c : Cpu} (hsp : c.registers.sp ≤ 16) (n : Nat) :
    (c.after n).registers.sp ≤ 16 := by
  induction n with
  | zero => exact hsp
  | succ n ih => exact sp_step_le ih

/-! ### Last in, first out -/

/-- **The last call returns first.**  Take a run of steps that succeed.  If it begins with a call,
and the stack is higher than before the call until the end of the run brings it back, then the last
word is a return, the program goes on behind the call, and the older slots hold what they held.  In
any case the stack pointer has moved by the calls less the returns, and it stays in its bounds. -/
theorem lifo_of_run {c : Cpu} {n : Nat} (hrun : ∀ k < n, (c.after k).Proceeds)
    (hsp : c.registers.sp ≤ 16) :
    (IsCall c.currentWord → 0 < n →
        (∀ k, 0 < k → k < n → c.registers.sp < (c.after k).registers.sp) →
        (c.after n).registers.sp = c.registers.sp →
      (c.after (n - 1)).currentWord = returnWord ∧
        (c.after n).registers.pc = c.registers.pc + 2 ∧
        ∀ slot < c.registers.sp,
          (c.after n).registers.stack[slot]? = c.registers.stack[slot]?) ∧
      ((c.after n).registers.sp : Int) - c.registers.sp =
        (c.words n).countP IsCall - (c.words n).count returnWord ∧
      ∀ k, (c.after k).registers.sp ≤ 16 := by
  refine ⟨?_, ?_, sp_after_le hsp⟩
  · intro hword hpos hhigher hback
    obtain ⟨m, rfl⟩ : ∃ m, n = m + 1 := ⟨n - 1, by omega⟩
    rw [after_succ] at hback ⊢
    rcases Nat.eq_zero_or_pos m with rfl | hm
    · -- the call itself does not bring the stack back
      have hopen := (openCall_of_call hword (hrun 0 hpos)).higher
      simp only [after_zero] at hback
      omega
    · have hopen := openCall_after hword hrun hhigher m hm (by omega)
      exact hopen.back (hrun m (by omega)) hback
  · have hcount := sp_after_add_count hrun
    omega

instance (c : Cpu) : Decidable c.Proceeds :=
  decidable_of_iff (c.step.outcome.isOk = true) (by
    unfold Proceeds
    cases c.step.outcome <;> simp [Except.isOk, Except.toBool])

/-- A call at `200` of the subroutine at `204`, which calls the one at `208`. -/
def nestedCalls : Cpu :=
  (new 0).load [0x22, 0x04, 0x00, 0x00, 0x22, 0x08, 0x00, 0xee, 0x00, 0xee]

theorem lifo_nestedCalls :
    (∀ k < 4, (nestedCalls.after k).Proceeds) ∧ nestedCalls.registers.sp ≤ 16 ∧
      (nestedCalls.after 3).currentWord = returnWord ∧
      (nestedCalls.after 4).registers.pc = 0x202 ∧
      (nestedCalls.words 4).countP IsCall = (nestedCalls.words 4).count returnWord := by
  have hrun : ∀ k < 4, (nestedCalls.after k).Proceeds := by decide +kernel
  have hsp : nestedCalls.registers.sp ≤ 16 := by decide
  have hhigher : ∀ k, 0 < k → k < 4 →
      nestedCalls.registers.sp < (nestedCalls.after k).registers.sp := by
    intro k hpos hk
    revert hpos
    revert k
    decide +kernel
  have hback : (nestedCalls.after 4).registers.sp = nestedCalls.registers.sp := by decide +kernel
  obtain ⟨hreturn, hcount, -⟩ := lifo_of_run hrun hsp
  obtain ⟨hword, hpc, -⟩ := hreturn (by decide +kernel) (by decide) hhigher hback
  refine ⟨hrun, hsp, hword, hpc, ?_⟩
  omega

end Chip8.Cpu
