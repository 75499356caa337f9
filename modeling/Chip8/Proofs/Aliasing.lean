/-
**Aliases of an address.**

Memory has 4096 bytes and an address sixteen bits, so each byte has sixteen names.  The index
register, the program counter and the slots of the stack may hold any of them, and arithmetic takes
a program from one to another: the index register runs past the top of memory, and a return address
keeps whatever bits the counter had at the call.

No program can tell the names of a byte apart.  Take two processors that differ in nothing but the
names they hold.  They fetch the same words, come to the same outcomes and remain two such
processors, for as long as they run.  The words decide what happens, and they are the same because
the counters name the same bytes; what happens reads an address only to get at a byte, or copies it.

* `Chip8.Memory.Alias` — two names of one byte, with `Alias.read`, `Alias.word` and
  `Alias.writeBytes`: memory does not tell them apart;
* `Chip8.Registers.Aliased`, `Chip8.Cpu.Aliased` — the same state up to the names of addresses;
* `Chip8.Cpu.SameOutcome` — the same flow, or faults of one kind;
* `Chip8.Cpu.Aliased.execute`, `Chip8.Cpu.Aliased.step` — an instruction and a step keep it so;
* `Chip8.Cpu.sameOutcome_after` — **aliases are unobservable**, over runs of any length.
-/
import Chip8.Proofs.CallStack

set_option relaxedAutoImplicit false
set_option autoImplicit false

namespace Chip8

/-! ### Names of a byte -/

namespace Memory

/-- Two names of one byte. -/
def Alias (a b : UInt16) : Prop :=
  a.toNat % 4096 = b.toNat % 4096

instance (a b : UInt16) : Decidable (Alias a b) :=
  inferInstanceAs (Decidable (a.toNat % 4096 = b.toNat % 4096))

theorem Alias.of_eq {a b : UInt16} (h : a = b) : Alias a b := by
  rw [h]
  exact rfl

theorem Alias.cellOf {a b : UInt16} (h : Alias a b) : cellOf a = cellOf b :=
  Fin.ext h

/-- The same distance from two names of a byte are two names of a byte: the sums may wrap at
different places, but the range of addresses is a multiple of the size of memory. -/
theorem Alias.add {a b : UInt16} (h : Alias a b) (n : UInt16) : Alias (a + n) (b + n) := by
  unfold Alias at h ⊢
  rw [UInt16.toNat_add, UInt16.toNat_add]
  omega

theorem Alias.read {a b : UInt16} (h : Alias a b) (m : Memory) : m.read a = m.read b := by
  have hcell := h.cellOf
  exact congrArg (fun cell : Fin 4096 => m.cells[cell]) hcell

theorem Alias.write {a b : UInt16} (h : Alias a b) (m : Memory) (byte : UInt8) :
    m.write a byte = m.write b byte := by
  have hcell := h.cellOf
  exact congrArg (fun cell : Fin 4096 => { m with cells := m.cells.set cell byte }) hcell

theorem Alias.word {a b : UInt16} (h : Alias a b) (m : Memory) : m.word a = m.word b := by
  unfold Memory.word
  rw [h.read, (h.add 1).read]

theorem Alias.writeBytes {a b : UInt16} (h : Alias a b) (m : Memory) (bytes : List UInt8) :
    m.writeBytes a bytes = m.writeBytes b bytes := by
  induction bytes generalizing m a b with
  | nil => rfl
  | cons byte bytes ih =>
      rw [writeBytes_cons, writeBytes_cons, h.write]
      exact ih (h.add 1) _

end Memory

open Memory (Alias)

/-! ### The register file -/

namespace Registers

/-- The same register file up to the names of addresses. -/
structure Aliased (r s : Registers) : Prop where
  v : r.v = s.v
  sp : r.sp = s.sp
  sp_le : r.sp ≤ 16
  i : Alias r.i s.i
  pc : Alias r.pc s.pc
  stack : ∀ slot : Fin 16, Alias r.stack[slot] s.stack[slot]

namespace Aliased

variable {r s : Registers}

theorem get (h : Aliased r s) : r.get = s.get := by
  funext x
  unfold Registers.get
  rw [h.v]

theorem set (h : Aliased r s) (x : Nat) (byte : UInt8) : Aliased (r.set x byte) (s.set x byte) := by
  refine ⟨?_, h.sp, h.sp_le, h.i, h.pc, h.stack⟩
  unfold Registers.set
  rw [h.v]

theorem setFlag (h : Aliased r s) (on : Bool) : Aliased (r.setFlag on) (s.setFlag on) :=
  h.set flagIndex on.toUInt8

theorem skip (h : Aliased r s) : Aliased r.skip s.skip :=
  ⟨h.v, h.sp, h.sp_le, h.i, h.pc.add 2, h.stack⟩

theorem withPc (h : Aliased r s) (target : UInt16) :
    Aliased { r with pc := target } { s with pc := target } :=
  ⟨h.v, h.sp, h.sp_le, h.i, .of_eq rfl, h.stack⟩

theorem withIndex (h : Aliased r s) {i j : UInt16} (hij : Alias i j) :
    Aliased { r with i := i } { s with i := j } :=
  ⟨h.v, h.sp, h.sp_le, hij, h.pc, h.stack⟩

theorem setWithFlag (h : Aliased r s) (x : Nat) (result : UInt8) (on : Bool) :
    Aliased (Cpu.setWithFlag r x result on) (Cpu.setWithFlag s x result on) :=
  (h.set x result).setFlag on

/-- Arithmetic reads byte registers and writes byte registers. -/
theorem arithmetic (h : Aliased r s) (instruction : Instruction) :
    Aliased (Cpu.arithmetic r instruction) (Cpu.arithmetic s instruction) := by
  unfold Cpu.arithmetic
  rw [h.get]
  cases instruction with
  | setByte | addByte | copy | or | and | xor => exact h.set _ _
  | add | sub | subFrom | shiftRight | shiftLeft => exact h.setWithFlag _ _ _
  | _ => exact h

/-- Loading from memory reads the same bytes through both index registers. -/
theorem fillRegisters (h : Aliased r s) (m : Memory) (x : Nat) :
    Aliased (Cpu.fillRegisters m r x) (Cpu.fillRegisters m s x) := by
  have hread : ∀ n, m.read (r.i + UInt16.ofNat n) = m.read (s.i + UInt16.ofNat n) :=
    fun n => (h.i.add _).read m
  unfold Cpu.fillRegisters
  simp only [hread]
  -- the files that are filled change on the way, the index register that is read does not
  suffices key : ∀ (numbers : List Nat) (r' s' : Registers), Aliased r' s' →
      Aliased (numbers.foldl (fun r' n => r'.set n (m.read (s.i + UInt16.ofNat n))) r')
        (numbers.foldl (fun s' n => s'.set n (m.read (s.i + UInt16.ofNat n))) s') from
    key _ r s h
  intro numbers
  induction numbers with
  | nil => exact fun _ _ h => h
  | cons n numbers ih => exact fun _ _ h => ih _ _ (h.set n _)

/-- A call notes names of one byte in the same slot. -/
theorem pushed (h : Aliased r s) (target : UInt16) (hr : r.sp < 16) (hs : s.sp < 16) :
    Aliased { r with pc := target, sp := r.sp + 1, stack := r.stack.set r.sp (r.pc + 2) hr }
      { s with pc := target, sp := s.sp + 1, stack := s.stack.set s.sp (s.pc + 2) hs } := by
  refine ⟨h.v, congrArg (· + 1) h.sp, hr, h.i, .of_eq rfl, ?_⟩
  intro slot
  have hslot := h.stack slot
  have hpc := h.pc.add 2
  have hsp := h.sp
  simp only [Fin.getElem_fin, Vector.getElem_set] at hslot ⊢
  by_cases hat : r.sp = slot.val
  · rw [if_pos hat, if_pos (hsp ▸ hat)]
    exact hpc
  · rw [if_neg hat, if_neg (hsp ▸ hat)]
    exact hslot

/-- A return goes on at names of one byte. -/
theorem popped {n : Nat} (h : Aliased r s) (hr : r.sp = n + 1) :
    Aliased { r with pc := r.stack.getD n 0, sp := n } { s with pc := s.stack.getD n 0, sp := n } := by
  have hn : n < 16 := by
    have := h.sp_le
    omega
  refine ⟨h.v, rfl, Nat.le_of_lt hn, h.i, ?_, h.stack⟩
  have hslot := h.stack ⟨n, hn⟩
  simpa [Vector.getD, hn] using hslot

end Aliased

end Registers

/-! ### The processor -/

/-- Errors of one kind, whatever words and addresses they carry. -/
def Error.SameKind : Error → Error → Prop
  | .unknownOpcode _, .unknownOpcode _ | .stackOverflow _, .stackOverflow _
  | .stackUnderflow _, .stackUnderflow _ | .noDisplay, .noDisplay | .halted _, .halted _
  | .io _, .io _ | .audio _, .audio _ => True
  | _, _ => False

namespace Cpu

open Instruction (IsCall returnWord)

/-- The same flow, or faults of one kind. -/
inductive SameOutcome : Except Error Flow → Except Error Flow → Prop where
  | flow (flow : Flow) : SameOutcome (.ok flow) (.ok flow)
  | fault {e e' : Error} (h : e.SameKind e') : SameOutcome (.error e) (.error e')

theorem sameOutcome_of_ok {outcome outcome' : Except Error Flow} {flow : Flow}
    (h : outcome = .ok flow) (h' : outcome' = .ok flow) : SameOutcome outcome outcome' := by
  rw [h, h']
  exact .flow flow

/-- The same processor up to the names of addresses. -/
structure Aliased (c d : Cpu) : Prop where
  registers : c.registers.Aliased d.registers
  memory : c.memory = d.memory
  screen : c.screen = d.screen
  timers : c.timers = d.timers
  keypad : c.keypad = d.keypad
  random : c.random = d.random
  drawPending : c.drawPending = d.drawPending

/-- A sprite is the same from every name of its first byte. -/
theorem spritePoints_of_alias {i j : UInt16} (h : Alias i j) (m : Memory) (left top : Int)
    (height : Nat) : spritePoints m i left top height = spritePoints m j left top height := by
  have hread : ∀ row, m.read (i + UInt16.ofNat row) = m.read (j + UInt16.ofNat row) :=
    fun row => (h.add _).read m
  simp only [spritePoints, hread]

namespace Aliased

variable {c d : Cpu}

theorem currentWord (h : Aliased c d) : c.currentWord = d.currentWord := by
  unfold Cpu.currentWord
  rw [h.memory]
  exact h.registers.pc.word _

theorem withRegisters (h : Aliased c d) {r s : Registers} (hrs : r.Aliased s) :
    Aliased { c with registers := r } { d with registers := s } :=
  ⟨hrs, h.memory, h.screen, h.timers, h.keypad, h.random, h.drawPending⟩

theorem withMemory (h : Aliased c d) {m m' : Memory} (hm : m = m') :
    Aliased { c with memory := m } { d with memory := m' } :=
  ⟨h.registers, hm, h.screen, h.timers, h.keypad, h.random, h.drawPending⟩

theorem withTimers (h : Aliased c d) {t t' : Timers} (ht : t = t') :
    Aliased { c with timers := t } { d with timers := t' } :=
  ⟨h.registers, h.memory, h.screen, ht, h.keypad, h.random, h.drawPending⟩

theorem skipIf (h : Aliased c d) (condition : Bool) :
    Aliased (c.skipIf condition) (d.skipIf condition) := by
  cases condition with
  | false => exact h
  | true => exact h.withRegisters h.registers.skip

theorem draw (h : Aliased c d) (x y height : Nat) :
    Aliased (c.draw x y height) (d.draw x y height) := by
  have hpoints : spritePoints c.memory c.registers.i (c.registers.get x).toNat
      (c.registers.get y).toNat height =
        spritePoints d.memory d.registers.i (d.registers.get x).toNat
          (d.registers.get y).toNat height := by
    rw [h.memory, h.registers.get, spritePoints_of_alias h.registers.i]
  unfold Cpu.draw
  simp only [hpoints, h.screen]
  exact ⟨h.registers.setFlag _, h.memory, rfl, h.timers, h.keypad, h.random, rfl⟩

/-- What an instruction other than a call and a return does: the same to both. -/
theorem execute (h : Aliased c d) {instruction : Instruction}
    (hcall : ∀ target, instruction ≠ .call target) (hret : instruction ≠ .ret) :
    (c.execute instruction).1 = (d.execute instruction).1 ∧
      Aliased (c.execute instruction).2 (d.execute instruction).2 := by
  have hr := h.registers
  have hget := hr.get
  cases instruction with
  | call target => exact absurd rfl (hcall target)
  | ret => exact absurd rfl hret
  | clearScreen =>
      exact ⟨rfl, hr, h.memory, rfl, h.timers, h.keypad, h.random, h.drawPending⟩
  | jump target => exact ⟨rfl, h.withRegisters (hr.withPc target)⟩
  | jumpFrom addr =>
      simp only [Cpu.execute, hget]
      exact ⟨trivial, h.withRegisters (hr.withPc _)⟩
  | skipIfByte | skipUnlessByte | skipIfSame | skipUnlessSame =>
      simp only [Cpu.execute, hget]
      exact ⟨trivial, h.skipIf _⟩
  | skipIfKey | skipUnlessKey =>
      simp only [Cpu.execute, hget, h.keypad]
      exact ⟨trivial, h.skipIf _⟩
  | setIndex addr => exact ⟨rfl, h.withRegisters (hr.withIndex (.of_eq rfl))⟩
  | addIndex x =>
      simp only [Cpu.execute, hget]
      exact ⟨trivial, h.withRegisters (hr.withIndex (hr.i.add _))⟩
  | glyph x =>
      have hplace : c.memory.glyphAddress (c.registers.get x) =
          d.memory.glyphAddress (d.registers.get x) := by rw [h.memory, hget]
      exact ⟨rfl, h.withRegisters (hr.withIndex (.of_eq hplace))⟩
  | random x mask =>
      simp only [Cpu.execute, h.random]
      exact ⟨trivial, hr.set x _, h.memory, h.screen, h.timers, h.keypad, rfl, h.drawPending⟩
  | draw x y height => exact ⟨rfl, h.draw x y height⟩
  | readDelay x =>
      have hdelay : c.timers.delay = d.timers.delay := by rw [h.timers]
      simp only [Cpu.execute, hdelay]
      exact ⟨trivial, h.withRegisters (hr.set x _)⟩
  | awaitKey | undefined => exact ⟨rfl, h⟩
  | setDelay | setSound =>
      simp only [Cpu.execute, hget, h.timers]
      exact ⟨trivial, h.withTimers rfl⟩
  | decimal x =>
      simp only [Cpu.execute, hget, h.memory]
      exact ⟨trivial, h.withMemory (hr.i.writeBytes _ _)⟩
  | store x =>
      simp only [Cpu.execute, firstRegisters, hget, h.memory]
      exact ⟨trivial, h.withMemory (hr.i.writeBytes _ _)⟩
  | load x =>
      have hfilled : (fillRegisters c.memory c.registers x).Aliased
          (fillRegisters d.memory d.registers x) := by
        rw [h.memory]
        exact hr.fillRegisters _ x
      exact ⟨rfl, h.withRegisters hfilled⟩
  | setByte | addByte | copy | or | and | xor | add | sub | subFrom | shiftRight | shiftLeft =>
      exact ⟨rfl, h.withRegisters (hr.arithmetic _)⟩

/-- A step comes to the same, and leaves the same behind, up to the names of addresses. -/
theorem step (h : Aliased c d) :
    SameOutcome c.step.outcome d.step.outcome ∧ Aliased c.step.cpu d.step.cpu := by
  have hword := h.currentWord
  have hsame := h.registers.sp
  by_cases hcall : IsCall c.currentWord
  · have hcall' : IsCall d.currentWord := hword ▸ hcall
    by_cases hsp : c.registers.sp < 16
    · have hsp' : d.registers.sp < 16 := hsame ▸ hsp
      obtain ⟨hout, hcpu⟩ := step_of_call hcall hsp
      obtain ⟨hout', hcpu'⟩ := step_of_call hcall' hsp'
      refine ⟨sameOutcome_of_ok hout hout', ?_⟩
      rw [hcpu, hcpu', hword]
      exact h.withRegisters (h.registers.pushed _ hsp hsp')
    · obtain ⟨hout, hcpu⟩ := step_of_full hcall (Nat.not_lt.1 hsp)
      obtain ⟨hout', hcpu'⟩ := step_of_full hcall' (Nat.not_lt.1 (hsame ▸ hsp))
      rw [hout, hout', hcpu, hcpu']
      exact ⟨.fault trivial, h.withRegisters h.registers.skip⟩
  · by_cases hret : c.currentWord = returnWord
    · have hret' : d.currentWord = returnWord := hword ▸ hret
      cases hsp : c.registers.sp with
      | zero =>
          obtain ⟨hout, hcpu⟩ := step_of_empty hret hsp
          obtain ⟨hout', hcpu'⟩ := step_of_empty hret' (hsame ▸ hsp)
          rw [hout, hout', hcpu, hcpu']
          exact ⟨.fault trivial, h.withRegisters h.registers.skip⟩
      | succ n =>
          obtain ⟨hout, hcpu⟩ := step_of_return hret hsp
          obtain ⟨hout', hcpu'⟩ := step_of_return hret' (hsame ▸ hsp)
          refine ⟨sameOutcome_of_ok hout hout', ?_⟩
          rw [hcpu, hcpu']
          exact h.withRegisters (h.registers.popped hsp)
    · -- every other word succeeds, so the outcomes are one flow
      obtain ⟨⟨flow, hok⟩, -⟩ := step_of_other hcall hret
      have hskip : Aliased { c with registers := c.registers.skip }
          { d with registers := d.registers.skip } := h.withRegisters h.registers.skip
      have hcall' : ∀ target, Instruction.decode c.currentWord ≠ .call target :=
        fun target h => hcall (Instruction.isCall_of_decode h)
      have hret' : Instruction.decode c.currentWord ≠ .ret :=
        fun h => hret (Instruction.eq_returnWord_of_decode h)
      obtain ⟨hout, hcpu⟩ := hskip.execute hcall' hret'
      rw [step_outcome] at hok
      rw [step_outcome, step_outcome, step_cpu, step_cpu, ← hword]
      exact ⟨sameOutcome_of_ok hok (hout ▸ hok), hcpu⟩

/-- The relation is kept along a run. -/
theorem after (h : Aliased c d) (n : Nat) : Aliased (c.after n) (d.after n) := by
  induction n with
  | zero => exact h
  | succ n ih =>
      rw [after_succ, after_succ]
      exact ih.step.2

end Aliased

/-- **Aliases are unobservable.**  Two processors that differ in nothing but the names of bytes in
the index register, the program counter and the stack run alike: whatever number of steps they have
done, they are still two such processors, and their next step comes to the same flow or to a fault
of the same kind. -/
theorem sameOutcome_after {c d : Cpu} (h : Aliased c d) (n : Nat) :
    SameOutcome (c.after n).step.outcome (d.after n).step.outcome ∧
      Aliased (c.after n) (d.after n) :=
  ⟨(h.after n).step.1, h.after n⟩

/-- In a subroutine that stores two registers across the top of memory, moves the index register on
past it and returns. -/
def acrossTheTop : Cpu :=
  let c := (new 0).load [0xf1, 0x55, 0xf1, 0x1e, 0x00, 0xee]
  { c with
    registers :=
      { c.registers with
        v := c.registers.v.set 1 0x20
        i := 0x0fff
        sp := 1
        stack := c.registers.stack.set 0 0x0300 } }

/-- The same with other names. -/
def acrossTheRange : Cpu :=
  { acrossTheTop with
    registers :=
      { acrossTheTop.registers with
        i := 0xffff
        pc := 0x1200
        stack := acrossTheTop.registers.stack.set 0 0xf300 } }

theorem sameOutcome_acrossTheRange :
    Aliased acrossTheTop acrossTheRange ∧
      SameOutcome (acrossTheTop.after 2).step.outcome (acrossTheRange.after 2).step.outcome ∧
      (acrossTheTop.after 3).memory = (acrossTheRange.after 3).memory ∧
      (acrossTheTop.after 3).registers.pc = 0x0300 ∧
      (acrossTheRange.after 3).registers.pc = 0xf300 := by
  have h : Aliased acrossTheTop acrossTheRange :=
    ⟨⟨rfl, rfl, by decide, rfl, rfl, by decide⟩, rfl, rfl, rfl, rfl, rfl, rfl⟩
  refine ⟨h, (sameOutcome_after h 2).1, (sameOutcome_after h 3).2.memory, ?_, ?_⟩
  · decide +kernel
  · decide +kernel

end Cpu

end Chip8
