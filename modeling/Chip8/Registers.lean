/-
**Registers and the call stack.**

Sixteen byte registers `V0` to `VF`, of which the last doubles as the flag, an index register, the
program counter, and a stack of sixteen return addresses of which the lowest `sp` are in use.

Main definitions:

* `Chip8.Registers` — the register file;
* `Chip8.Registers.get`, `Chip8.Registers.set`, `Chip8.Registers.flag`, `Chip8.Registers.setFlag`;
* `Chip8.Registers.push`, `Chip8.Registers.pop` — enter and leave a subroutine;
* `Chip8.Registers.skip` — pass over an instruction.

Main result: `Chip8.Registers.pop_push`, a return undoes a call but for the slot it used.
-/
import Chip8.Memory

set_option relaxedAutoImplicit false
set_option autoImplicit false

namespace Chip8

/-- The register file. -/
structure Registers where
  v : Vector UInt8 16
  i : UInt16
  pc : UInt16
  /-- How many stack slots are in use. -/
  sp : Nat
  /-- The return addresses, oldest first; a slot keeps its value when it falls out of use. -/
  stack : Vector UInt16 16
deriving DecidableEq

namespace Registers

/-- How many calls can be open at once. -/
abbrev stackDepth : Nat :=
  16

/-- The number of the register that holds the flag. -/
def flagIndex : Nat :=
  0xf

/-- All zero, the program counter at the start of the program. -/
def new : Registers :=
  ⟨Vector.replicate 16 0, 0, Memory.defaultProgramAddr, 0, Vector.replicate 16 0⟩

/-- The byte in a register. -/
def get (r : Registers) (x : Nat) : UInt8 :=
  r.v.getD x 0

/-- Put a byte into a register. -/
def set (r : Registers) (x : Nat) (byte : UInt8) : Registers :=
  { r with v := r.v.setIfInBounds x byte }

/-- The flag. -/
def flag (r : Registers) : UInt8 :=
  r.get flagIndex

/-- Set the flag to one or zero. -/
def setFlag (r : Registers) (on : Bool) : Registers :=
  r.set flagIndex on.toUInt8

/-- Move the program counter on by one instruction. -/
def skip (r : Registers) : Registers :=
  { r with pc := r.pc + 2 }

/-- Note the program counter on the stack. -/
def push (r : Registers) : Except Error Registers :=
  if h : r.sp < stackDepth then
    .ok { r with stack := r.stack.set r.sp r.pc h, sp := r.sp + 1 }
  else
    .error (.stackOverflow r.pc)

/-- Take the program counter from the stack. -/
def pop (r : Registers) : Except Error Registers :=
  match r.sp with
  | 0 => .error (.stackUnderflow r.pc)
  | n + 1 => .ok { r with pc := r.stack.getD n 0, sp := n }

/-! ### Laws -/

theorem get_set (r : Registers) {x : Nat} (hx : x < 16) (y : Nat) (byte : UInt8) :
    (r.set x byte).get y = if x = y then byte else r.get y := by
  by_cases h : x = y
  · subst h
    simp [get, set, Vector.getD, hx]
  · by_cases hy : y < 16
    · simp [get, set, Vector.getD, hy, h]
    · simp [get, set, Vector.getD, hy, h]

@[simp]
theorem get_set_self (r : Registers) {x : Nat} (hx : x < 16) (byte : UInt8) :
    (r.set x byte).get x = byte := by
  simp [get_set r hx]

theorem get_set_of_ne (r : Registers) {x y : Nat} (hx : x < 16) (h : x ≠ y) (byte : UInt8) :
    (r.set x byte).get y = r.get y := by
  simp [get_set r hx, h]

/-- A return undoes a call but for the slot it used. -/
theorem pop_push {r r' : Registers} (h : r.push = .ok r') (pc : UInt16) :
    ({ r' with pc := pc }).pop = .ok { r' with pc := r.pc, sp := r.sp } := by
  unfold push at h
  split at h
  · rename_i hsp
    obtain rfl := Except.ok.inj h
    have hsp' : r.sp < 16 := hsp
    simp [pop, Vector.getD, hsp']
  · simp at h

end Registers

end Chip8
