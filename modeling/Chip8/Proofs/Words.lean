/-
**Words and their families.**

The first digit of a word decides which instructions it can encode.  Sixteen families come of that,
and in some of them there are words outside of the instruction set.  So to find the words of an
instruction it is enough to look at one family.

Main definition: `Chip8.Instruction.family?`, the first digit of the words of an instruction.

Main result: `Chip8.Instruction.digit_of_decode`, a word has the first digit of its instruction.
-/
import Chip8.Proofs.Encoding

set_option relaxedAutoImplicit false
set_option autoImplicit false

namespace Chip8.Instruction

/-- The first digit of the words of an instruction, unless it is for those outside of the set. -/
def family? : Instruction → Option Nat
  | clearScreen | ret => some 0x0
  | jump _ => some 0x1
  | call _ => some 0x2
  | skipIfByte _ _ => some 0x3
  | skipUnlessByte _ _ => some 0x4
  | skipIfSame _ _ => some 0x5
  | setByte _ _ => some 0x6
  | addByte _ _ => some 0x7
  | copy _ _ | or _ _ | and _ _ | xor _ _ | add _ _ | sub _ _ | subFrom _ _ => some 0x8
  | shiftRight _ | shiftLeft _ => some 0x8
  | skipUnlessSame _ _ => some 0x9
  | setIndex _ => some 0xa
  | jumpFrom _ => some 0xb
  | random _ _ => some 0xc
  | draw _ _ _ => some 0xd
  | skipIfKey _ | skipUnlessKey _ => some 0xe
  | readDelay _ | awaitKey _ | setDelay _ | setSound _ | addIndex _ => some 0xf
  | glyph _ | decimal _ | store _ | load _ => some 0xf
  | undefined _ => none

/-- A word is outside of the instruction set, or its first digit is that of its instruction. -/
theorem family_decode (word : UInt16) :
    (decode word).family? = none ∨ (decode word).family? = some (word.toNat / 0x1000) := by
  have hencodes := encodes_decode word
  generalize decode word = instruction at hencodes ⊢
  cases instruction
  case undefined => exact .inl rfl
  case clearScreen | ret =>
    subst hencodes
    exact .inr rfl
  all_goals exact .inr (congrArg some hencodes.1.symm)

/-- **A word has the first digit of its instruction.** -/
theorem digit_of_decode {word : UInt16} {instruction : Instruction} {digit : Nat}
    (h : decode word = instruction) (hfamily : instruction.family? = some digit) :
    word.toNat / 0x1000 = digit := by
  subst h
  rcases family_decode word with hnone | hsome
  · rw [hnone] at hfamily
    cases hfamily
  · rw [hsome] at hfamily
    exact Option.some.inj hfamily

end Chip8.Instruction
