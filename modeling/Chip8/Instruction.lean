/-
**Instructions of the machine.**

A program is a sequence of 16-bit words.  The top nibble of a word selects a family, and the rest
holds the operands: a 12-bit address, an immediate byte, or up to two register numbers and a
nibble.  A word outside the table is data; it reads as `undefined` and executes as nothing at all.

Main definitions:

* `Chip8.Instruction` — the thirty-four instructions and the undefined word;
* `Chip8.Instruction.decode` — the instruction that a word encodes;
* `Chip8.Instruction.mnemonic` — its assembly text;
* `Chip8.Instruction.WellFormed` — the operands lie in their ranges.

Main result: `Chip8.Instruction.wellFormed_decode`, decoding keeps all operands in range.
-/
import Chip8.Text.Hex

set_option relaxedAutoImplicit false
set_option autoImplicit false

namespace Chip8

/-- One instruction.  Registers are given by number, `x` before `y` as in the word. -/
inductive Instruction where
  /-- `00E0`: blank the screen. -/
  | clearScreen
  /-- `00EE`: return from a subroutine. -/
  | ret
  /-- `1NNN`: jump. -/
  | jump (target : UInt16)
  /-- `2NNN`: call a subroutine. -/
  | call (target : UInt16)
  /-- `3XNN`: skip the next instruction if the register holds the byte. -/
  | skipIfByte (x : Nat) (byte : UInt8)
  /-- `4XNN`: skip the next instruction unless the register holds the byte. -/
  | skipUnlessByte (x : Nat) (byte : UInt8)
  /-- `5XY_`: skip the next instruction if the registers agree. -/
  | skipIfSame (x y : Nat)
  /-- `6XNN`: load a byte. -/
  | setByte (x : Nat) (byte : UInt8)
  /-- `7XNN`: add a byte, leaving the flag alone. -/
  | addByte (x : Nat) (byte : UInt8)
  /-- `8XY0`: copy a register. -/
  | copy (x y : Nat)
  /-- `8XY1`: bitwise or. -/
  | or (x y : Nat)
  /-- `8XY2`: bitwise and. -/
  | and (x y : Nat)
  /-- `8XY3`: bitwise exclusive or. -/
  | xor (x y : Nat)
  /-- `8XY4`: add, the flag tells a carry. -/
  | add (x y : Nat)
  /-- `8XY5`: subtract, the flag tells that no borrow was needed. -/
  | sub (x y : Nat)
  /-- `8X_6`: halve, the flag takes the bit shifted out. -/
  | shiftRight (x : Nat)
  /-- `8XY7`: subtract the other way round. -/
  | subFrom (x y : Nat)
  /-- `8X_E`: double, the flag takes the bit shifted out. -/
  | shiftLeft (x : Nat)
  /-- `9XY_`: skip the next instruction unless the registers agree. -/
  | skipUnlessSame (x y : Nat)
  /-- `ANNN`: point the index register at an address. -/
  | setIndex (addr : UInt16)
  /-- `BNNN`: jump to an address offset by `V0`. -/
  | jumpFrom (addr : UInt16)
  /-- `CXNN`: a random byte under a mask. -/
  | random (x : Nat) (mask : UInt8)
  /-- `DXYN`: draw a sprite of the given height. -/
  | draw (x y : Nat) (height : Nat)
  /-- `EX9E`: skip the next instruction if the key is down. -/
  | skipIfKey (x : Nat)
  /-- `EXA1`: skip the next instruction unless the key is down. -/
  | skipUnlessKey (x : Nat)
  /-- `FX07`: read the delay timer. -/
  | readDelay (x : Nat)
  /-- `FX0A`: wait for a key press. -/
  | awaitKey (x : Nat)
  /-- `FX15`: set the delay timer. -/
  | setDelay (x : Nat)
  /-- `FX18`: set the sound timer. -/
  | setSound (x : Nat)
  /-- `FX1E`: advance the index register. -/
  | addIndex (x : Nat)
  /-- `FX29`: point the index register at the glyph of a digit. -/
  | glyph (x : Nat)
  /-- `FX33`: store the three decimal digits of a register. -/
  | decimal (x : Nat)
  /-- `FX55`: store `V0` to `VX`. -/
  | store (x : Nat)
  /-- `FX65`: load `V0` to `VX`. -/
  | load (x : Nat)
  /-- Any other word. -/
  | undefined (word : UInt16)
deriving DecidableEq, Repr, Inhabited

namespace Instruction

/-! ### Decoding -/

/-- The arithmetic family `8XY_`, selected by the low nibble. -/
def decodeArithmetic (word : UInt16) (x y : Nat) : Nat → Instruction
  | 0x0 => copy x y
  | 0x1 => or x y
  | 0x2 => and x y
  | 0x3 => xor x y
  | 0x4 => add x y
  | 0x5 => sub x y
  | 0x6 => shiftRight x
  | 0x7 => subFrom x y
  | 0xe => shiftLeft x
  | _ => undefined word

/-- The family `FX__` of timers, keys and memory transfers, selected by the low byte. -/
def decodeTransfer (word : UInt16) (x : Nat) : Nat → Instruction
  | 0x07 => readDelay x
  | 0x0a => awaitKey x
  | 0x15 => setDelay x
  | 0x18 => setSound x
  | 0x1e => addIndex x
  | 0x29 => glyph x
  | 0x33 => decimal x
  | 0x55 => store x
  | 0x65 => load x
  | _ => undefined word

/-- The instruction that a word encodes. -/
def decode (word : UInt16) : Instruction :=
  let w := word.toNat
  let x := w / 0x100 % 0x10
  let y := w / 0x10 % 0x10
  let byte := UInt8.ofNat (w % 0x100)
  let addr := UInt16.ofNat (w % 0x1000)
  match w / 0x1000 with
  | 0x0 => if w = 0x00e0 then clearScreen else if w = 0x00ee then ret else undefined word
  | 0x1 => jump addr
  | 0x2 => call addr
  | 0x3 => skipIfByte x byte
  | 0x4 => skipUnlessByte x byte
  | 0x5 => skipIfSame x y
  | 0x6 => setByte x byte
  | 0x7 => addByte x byte
  | 0x8 => decodeArithmetic word x y (w % 0x10)
  | 0x9 => skipUnlessSame x y
  | 0xa => setIndex addr
  | 0xb => jumpFrom addr
  | 0xc => random x byte
  | 0xd => draw x y (w % 0x10)
  | 0xe =>
    if w % 0x100 = 0x9e then skipIfKey x
    else if w % 0x100 = 0xa1 then skipUnlessKey x
    else undefined word
  | _ => decodeTransfer word x (w % 0x100)

/-! ### Assembly text -/

/-- The name of a register, such as `VA`. -/
def register (x : Nat) : String :=
  "V" ++ Hex.upper x

/-- An address with three digits, such as `0x2f0`. -/
def address (addr : UInt16) : String :=
  Hex.literal 3 addr.toNat

/-- A byte with two digits, such as `0x0c`. -/
def immediate (byte : UInt8) : String :=
  Hex.literal 2 byte.toNat

/-- The assembly text of an instruction. -/
def mnemonic : Instruction → String
  | clearScreen => "CLS"
  | ret => "RET"
  | jump a => "JP " ++ address a
  | call a => "CALL " ++ address a
  | skipIfByte x b => "SE " ++ register x ++ ", " ++ immediate b
  | skipUnlessByte x b => "SNE " ++ register x ++ ", " ++ immediate b
  | skipIfSame x y => "SE " ++ register x ++ ", " ++ register y
  | setByte x b => "LD " ++ register x ++ ", " ++ immediate b
  | addByte x b => "ADD " ++ register x ++ ", " ++ immediate b
  | copy x y => "LD " ++ register x ++ ", " ++ register y
  | or x y => "OR " ++ register x ++ ", " ++ register y
  | and x y => "AND " ++ register x ++ ", " ++ register y
  | xor x y => "XOR " ++ register x ++ ", " ++ register y
  | add x y => "ADD " ++ register x ++ ", " ++ register y
  | sub x y => "SUB " ++ register x ++ ", " ++ register y
  | shiftRight x => "SHR " ++ register x
  | subFrom x y => "SUBN " ++ register x ++ ", " ++ register y
  | shiftLeft x => "SHL " ++ register x
  | skipUnlessSame x y => "SNE " ++ register x ++ ", " ++ register y
  | setIndex a => "LD I, " ++ address a
  | jumpFrom a => "JP V0, " ++ address a
  | random x m => "RND " ++ register x ++ ", " ++ immediate m
  | draw x y n => "DRW " ++ register x ++ ", " ++ register y ++ ", " ++ n.repr
  | skipIfKey x => "SKP " ++ register x
  | skipUnlessKey x => "SKNP " ++ register x
  | readDelay x => "LD " ++ register x ++ ", DT"
  | awaitKey x => "LD " ++ register x ++ ", K"
  | setDelay x => "LD DT, " ++ register x
  | setSound x => "LD ST, " ++ register x
  | addIndex x => "ADD I, " ++ register x
  | glyph x => "LD F, " ++ register x
  | decimal x => "LD B, " ++ register x
  | store x => "LD [I], " ++ register x
  | load x => "LD " ++ register x ++ ", [I]"
  | undefined w => "DW " ++ Hex.literal 4 w.toNat

/-! ### Operands in range -/

/-- Every register that the instruction names exists, an address has twelve bits, and a sprite is at
most fifteen rows high. -/
def WellFormed : Instruction → Prop
  | clearScreen | ret | undefined _ => True
  | jump a | call a | setIndex a | jumpFrom a => a.toNat < 0x1000
  | skipIfByte x _ | skipUnlessByte x _ | setByte x _ | addByte x _ | random x _ => x < 16
  | shiftRight x | shiftLeft x | skipIfKey x | skipUnlessKey x | readDelay x | awaitKey x
  | setDelay x | setSound x | addIndex x | glyph x | decimal x | store x | load x => x < 16
  | skipIfSame x y | copy x y | or x y | and x y | xor x y | add x y | sub x y | subFrom x y
  | skipUnlessSame x y => x < 16 ∧ y < 16
  | draw x y height => x < 16 ∧ y < 16 ∧ height < 16

theorem wellFormed_decodeArithmetic (word : UInt16) {x y : Nat} (hx : x < 16) (hy : y < 16)
    (n : Nat) : (decodeArithmetic word x y n).WellFormed := by
  unfold decodeArithmetic
  split <;> simp [WellFormed, hx, hy]

theorem wellFormed_decodeTransfer (word : UInt16) {x : Nat} (hx : x < 16) (n : Nat) :
    (decodeTransfer word x n).WellFormed := by
  unfold decodeTransfer
  split <;> simp [WellFormed, hx]

/-- Decoding keeps all operands in range. -/
theorem wellFormed_decode (word : UInt16) : (decode word).WellFormed := by
  have hx : word.toNat / 0x100 % 0x10 < 16 := Nat.mod_lt _ (by decide)
  have hy : word.toNat / 0x10 % 0x10 < 16 := Nat.mod_lt _ (by decide)
  have hn : word.toNat % 0x10 < 16 := Nat.mod_lt _ (by decide)
  have ha : (UInt16.ofNat (word.toNat % 0x1000)).toNat < 0x1000 := by
    have h : word.toNat % 0x1000 < 0x1000 := Nat.mod_lt _ (by decide)
    rw [UInt16.toNat_ofNat']
    omega
  unfold decode
  simp only
  split
  case h_9 => exact wellFormed_decodeArithmetic word hx hy _
  case h_16 => exact wellFormed_decodeTransfer word hx _
  all_goals (repeat' split) <;> simp only [WellFormed, hx, hy, hn, ha, and_self]

end Instruction

end Chip8
