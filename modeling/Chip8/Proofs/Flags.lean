/-
**Arithmetic and the flag.**

Five instructions of the arithmetic family report on their result in the flag: a carry, a borrow that
was not needed, or the bit that a shift puts out.  The flag is the last of the sixteen registers, so
it may be an operand, or the target, or both, and the two operands may be one register.  That makes
the order of reading and writing matter.  All is read before anything is written, and the flag is
written last.

Main definitions:

* `Chip8.Flagged` — the five operations, with `Chip8.Flagged.digit` for their words;
* `Chip8.Flagged.result`, `Chip8.Flagged.flag` — what they come to, in integers.

Main results:

* `Chip8.Cpu.arithmetic_flagged` — what an operation does to a register file;
* `Chip8.Cpu.step_flagged` — **result and flag are those of the old values**, and the flag wins.
-/
import Chip8.Proofs.Encoding
import Chip8.Proofs.Step

set_option relaxedAutoImplicit false
set_option autoImplicit false

namespace Chip8

/-- The operations that report on their result in the flag. -/
inductive Flagged where
  | add
  | sub
  | shiftRight
  | subFrom
  | shiftLeft
deriving DecidableEq, Repr

namespace Flagged

/-- The last digit of the words of an operation. -/
def digit : Flagged → Nat
  | add => 0x4
  | sub => 0x5
  | shiftRight => 0x6
  | subFrom => 0x7
  | shiftLeft => 0xe

/-- The instruction of an operation.  A shift has one operand. -/
def instruction (x y : Nat) : Flagged → Instruction
  | add => .add x y
  | sub => .sub x y
  | shiftRight => .shiftRight x
  | subFrom => .subFrom x y
  | shiftLeft => .shiftLeft x

/-- The result of an operation on two integers. -/
def result (a b : Int) : Flagged → Int
  | add => (a + b) % 256
  | sub => (a - b) % 256
  | shiftRight => a / 2
  | subFrom => (b - a) % 256
  | shiftLeft => 2 * a % 256

/-- The flag of an operation on two integers. -/
def flag (a b : Int) : Flagged → Int
  | add => if 255 < a + b then 1 else 0
  | sub => if b < a then 1 else 0
  | shiftRight => a % 2
  | subFrom => if a < b then 1 else 0
  | shiftLeft => if 128 ≤ a then 1 else 0

/-- The words of an operation. -/
theorem decode_eq_instruction (op : Flagged) {word : UInt16} {x y : Nat} (hx : x < 16) (hy : y < 16)
    (hword : word.toNat = 0x8000 + 0x100 * x + 0x10 * y + op.digit) :
    Instruction.decode word = op.instruction x y := by
  have hdigit : op.digit < 16 := by cases op <;> decide
  have hfirst : Word.first word = 0x8 := by unfold Word.first; omega
  have hsecond : x = Word.second word := by unfold Word.second; omega
  have hthird : y = Word.third word := by unfold Word.third; omega
  have hlast : Word.last word = op.digit := by unfold Word.last; omega
  rw [Instruction.decode_eq_iff]
  cases op with
  | add | sub | subFrom => exact ⟨hfirst, hlast, hsecond, hthird⟩
  | shiftRight | shiftLeft => exact ⟨hfirst, hlast, hsecond⟩

end Flagged

/-- A bit as a byte as an integer. -/
theorem toNat_toUInt8 {on : Bool} {p : Prop} [Decidable p] (h : on = true ↔ p) :
    (on.toUInt8.toNat : Int) = if p then 1 else 0 := by
  cases on with
  | false => rw [if_neg (by simpa using h)]; rfl
  | true => rw [if_pos (by simpa using h)]; rfl

namespace Cpu

/-- **What an operation does to a register file**: it puts its result into the target and then its
flag into the last register, both of them computed from the operands as they were. -/
theorem arithmetic_flagged (r : Registers) (op : Flagged) (x y : Nat) :
    ∃ (result : UInt8) (on : Bool),
      arithmetic r (op.instruction x y) = setWithFlag r x result on ∧
        (result.toNat : Int) = op.result (r.get x).toNat (r.get y).toNat ∧
        (on.toUInt8.toNat : Int) = op.flag (r.get x).toNat (r.get y).toNat := by
  have ha := (r.get x).toNat_lt
  have hb := (r.get y).toNat_lt
  cases op with
  | add =>
      refine ⟨_, _, rfl, ?_, toNat_toUInt8 ?_⟩
      · rw [UInt8.toNat_add, Flagged.result]
        omega
      · rw [decide_eq_true_eq]
        omega
  | sub =>
      refine ⟨_, _, rfl, ?_, toNat_toUInt8 ?_⟩
      · rw [UInt8.toNat_sub, Flagged.result]
        omega
      · rw [decide_eq_true_eq, UInt8.lt_iff_toNat_lt]
        omega
  | subFrom =>
      refine ⟨_, _, rfl, ?_, toNat_toUInt8 ?_⟩
      · rw [UInt8.toNat_sub, Flagged.result]
        omega
      · rw [decide_eq_true_eq, UInt8.lt_iff_toNat_lt]
        omega
  -- a shift has its flag from a bit, which is a quotient or a remainder of the operand
  | shiftRight =>
      have hhalf : (r.get x >>> 1).toNat = (r.get x).toNat / 2 := by
        rw [UInt8.toNat_shiftRight]
        exact Nat.shiftRight_eq_div_pow _ _
      have hout : (r.get x &&& 1).toNat = (r.get x).toNat % 2 := by
        rw [UInt8.toNat_and]
        exact Nat.and_one_is_mod _
      have hflag : (r.get x &&& 1 == 1) = true ↔ (r.get x).toNat % 2 = 1 := by
        rw [beq_iff_eq, ← UInt8.toNat_inj, hout]
        rfl
      refine ⟨_, _, rfl, ?_, (toNat_toUInt8 hflag).trans ?_⟩
      · rw [hhalf]
        exact Int.natCast_ediv _ _
      · rw [Flagged.flag]
        split <;> omega
  | shiftLeft =>
      have hdouble : (r.get x <<< 1).toNat = 2 * (r.get x).toNat % 256 := by
        rw [UInt8.toNat_shiftLeft, Nat.shiftLeft_eq, Nat.mul_comm]
        rfl
      have hout : (r.get x >>> 7).toNat = (r.get x).toNat / 128 := by
        rw [UInt8.toNat_shiftRight]
        exact Nat.shiftRight_eq_div_pow _ _
      refine ⟨_, _, rfl, ?_, toNat_toUInt8 ?_⟩
      · rw [hdouble]
        rfl
      · rw [beq_iff_eq, ← UInt8.toNat_inj, hout]
        have hone : (1 : UInt8).toNat = 1 := rfl
        omega

/-! ### The flag comes last -/

section Written

variable (r : Registers) {x : Nat} (result : UInt8) (on : Bool)

theorem flag_setWithFlag : (setWithFlag r x result on).flag = on.toUInt8 :=
  Registers.get_set_self _ (by decide) _

/-- The target keeps the result, unless it is the flag. -/
theorem get_setWithFlag_self (hx : x < 16) (hflag : x ≠ 0xf) :
    (setWithFlag r x result on).get x = result := by
  have hlast : (setWithFlag r x result on).get x = (r.set x result).get x :=
    Registers.get_set_of_ne _ (by decide) hflag.symm _
  rw [hlast, Registers.get_set_self r hx]

theorem get_setWithFlag_of_ne (hx : x < 16) {z : Nat} (htarget : z ≠ x) (hflag : z ≠ 0xf) :
    (setWithFlag r x result on).get z = r.get z := by
  have hlast : (setWithFlag r x result on).get z = (r.set x result).get z :=
    Registers.get_set_of_ne _ (by decide) hflag.symm _
  rw [hlast, Registers.get_set_of_ne r hx htarget.symm]

end Written

/-! ### A step -/

/-- **Result and flag are those of the old values.**  Take a processor with any register file, about
to execute one of the five operations on any two registers, the same one or the last one among them.
Read the operands as integers.  The flag afterwards is that of the operation, also if it is the
target; any other target holds the result; and nothing else has changed but the program counter. -/
theorem step_flagged {c : Cpu} (op : Flagged) {x y : Nat} (hx : x < 16) (hy : y < 16)
    (hword : c.currentWord.toNat = 0x8000 + 0x100 * x + 0x10 * y + op.digit) :
    c.step.outcome = .ok .next ∧
      (x ≠ 0xf → ((c.step.cpu.registers.get x).toNat : Int) =
        op.result (c.registers.get x).toNat (c.registers.get y).toNat) ∧
      (c.step.cpu.registers.flag.toNat : Int) =
        op.flag (c.registers.get x).toNat (c.registers.get y).toNat ∧
      (∀ z, z ≠ x → z ≠ 0xf → c.step.cpu.registers.get z = c.registers.get z) ∧
      c.step.cpu =
        { c with
          registers :=
            { c.registers with v := c.step.cpu.registers.v, pc := c.registers.pc + 2 } } := by
  have hdecode := op.decode_eq_instruction hx hy hword
  have hstep : c.step.outcome = .ok .next ∧
      c.step.cpu = { c with registers := arithmetic c.registers.skip (op.instruction x y) } := by
    rw [step_outcome, step_cpu, hdecode]
    cases op <;> exact ⟨rfl, rfl⟩
  obtain ⟨houtcome, hcpu⟩ := hstep
  obtain ⟨result, on, hfile, hresult, hflag⟩ := arithmetic_flagged c.registers.skip op x y
  rw [hfile] at hcpu
  refine ⟨houtcome, ?_, ?_, ?_, ?_⟩
  · intro hne
    rw [hcpu, get_setWithFlag_self _ result on hx hne]
    exact hresult
  · rw [hcpu, flag_setWithFlag]
    exact hflag
  · intro z htarget hne
    rw [hcpu, get_setWithFlag_of_ne _ result on hx htarget hne]
    rfl
  · rw [hcpu]
    rfl

/-- A processor about to add the flag register to itself. -/
def flagTwice : Cpu :=
  { (new 0).load [0x8f, 0xf4] with registers := Registers.new.set 0xf 200 }

/-- The sum is lost and the carry is kept. -/
theorem step_flagged_flagTwice :
    flagTwice.currentWord.toNat = 0x8000 + 0x100 * 0xf + 0x10 * 0xf + Flagged.add.digit ∧
      (flagTwice.step.cpu.registers.flag.toNat : Int) = 1 := by
  have hword : flagTwice.currentWord.toNat =
      0x8000 + 0x100 * 0xf + 0x10 * 0xf + Flagged.add.digit := by decide +kernel
  have hvalue : Flagged.flag (flagTwice.registers.get 0xf).toNat
      (flagTwice.registers.get 0xf).toNat .add = 1 := by decide +kernel
  obtain ⟨-, -, hflag, -⟩ := step_flagged .add (by decide) (by decide) hword
  exact ⟨hword, hflag.trans hvalue⟩

end Cpu

end Chip8
