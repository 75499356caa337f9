/-
**The words of an instruction.**

A decoder takes a word apart and finds the instruction.  This module is the table to check it
against: for each instruction the words that encode it, digit by digit, and besides the words that
encode none.  Read from left to right the table says what a word means; and since decoding agrees
with it both ways round, it also says that no word has two meanings or none.

Main definitions:

* `Chip8.Word.first`, `Chip8.Word.second`, `Chip8.Word.third`, `Chip8.Word.last` — the digits of a
  word, with `Chip8.Word.byte` and `Chip8.Word.target` for its last two and its last three;
* `Chip8.Word.Undefined` — the words outside of the instruction set;
* `Chip8.Instruction.Encodes` — **the table**: a word encodes an instruction.

Main results:

* `Chip8.Instruction.encodes_decode` — a word encodes the instruction that it is decoded to;
* `Chip8.Instruction.decode_eq_iff` — **and it encodes no other one**.
-/
import Chip8.Instruction

set_option relaxedAutoImplicit false
set_option autoImplicit false

namespace Chip8

/-! ### Digits -/

namespace Word

/-- The first digit of a word, which selects the family. -/
def first (word : UInt16) : Nat :=
  word.toNat / 0x1000

/-- The second digit, for the most part the number of a register. -/
def second (word : UInt16) : Nat :=
  word.toNat / 0x100 % 0x10

/-- The third digit, in some families the number of another register. -/
def third (word : UInt16) : Nat :=
  word.toNat / 0x10 % 0x10

def last (word : UInt16) : Nat :=
  word.toNat % 0x10

/-- The last two digits. -/
def byte (word : UInt16) : Nat :=
  word.toNat % 0x100

/-- The last three digits, an address. -/
def target (word : UInt16) : UInt16 :=
  UInt16.ofNat (word.toNat % 0x1000)

/-- The words outside of the instruction set: four families have some. -/
def Undefined (word : UInt16) : Prop :=
  first word = 0x0 ∧ word ≠ 0x00e0 ∧ word ≠ 0x00ee ∨
    first word = 0x8 ∧ 0x7 < last word ∧ last word ≠ 0xe ∨
    first word = 0xe ∧ byte word ≠ 0x9e ∧ byte word ≠ 0xa1 ∨
    first word = 0xf ∧ byte word ∉ [0x07, 0x0a, 0x15, 0x18, 0x1e, 0x29, 0x33, 0x55, 0x65]

instance (word : UInt16) : Decidable (Undefined word) :=
  inferInstanceAs (Decidable (_ ∨ _))

end Word

/-! ### The table -/

namespace Instruction

open Word (first second third last byte target Undefined)

/-- A word encodes an instruction. -/
def Encodes (word : UInt16) : Instruction → Prop
  | clearScreen => word = 0x00e0
  | ret => word = 0x00ee
  | jump a => first word = 0x1 ∧ a = target word
  | call a => first word = 0x2 ∧ a = target word
  | skipIfByte x b => first word = 0x3 ∧ x = second word ∧ b = UInt8.ofNat (byte word)
  | skipUnlessByte x b => first word = 0x4 ∧ x = second word ∧ b = UInt8.ofNat (byte word)
  | skipIfSame x y => first word = 0x5 ∧ x = second word ∧ y = third word
  | setByte x b => first word = 0x6 ∧ x = second word ∧ b = UInt8.ofNat (byte word)
  | addByte x b => first word = 0x7 ∧ x = second word ∧ b = UInt8.ofNat (byte word)
  | copy x y => first word = 0x8 ∧ last word = 0x0 ∧ x = second word ∧ y = third word
  | or x y => first word = 0x8 ∧ last word = 0x1 ∧ x = second word ∧ y = third word
  | and x y => first word = 0x8 ∧ last word = 0x2 ∧ x = second word ∧ y = third word
  | xor x y => first word = 0x8 ∧ last word = 0x3 ∧ x = second word ∧ y = third word
  | add x y => first word = 0x8 ∧ last word = 0x4 ∧ x = second word ∧ y = third word
  | sub x y => first word = 0x8 ∧ last word = 0x5 ∧ x = second word ∧ y = third word
  | shiftRight x => first word = 0x8 ∧ last word = 0x6 ∧ x = second word
  | subFrom x y => first word = 0x8 ∧ last word = 0x7 ∧ x = second word ∧ y = third word
  | shiftLeft x => first word = 0x8 ∧ last word = 0xe ∧ x = second word
  | skipUnlessSame x y => first word = 0x9 ∧ x = second word ∧ y = third word
  | setIndex a => first word = 0xa ∧ a = target word
  | jumpFrom a => first word = 0xb ∧ a = target word
  | random x b => first word = 0xc ∧ x = second word ∧ b = UInt8.ofNat (byte word)
  | draw x y height =>
    first word = 0xd ∧ x = second word ∧ y = third word ∧ height = last word
  | skipIfKey x => first word = 0xe ∧ byte word = 0x9e ∧ x = second word
  | skipUnlessKey x => first word = 0xe ∧ byte word = 0xa1 ∧ x = second word
  | readDelay x => first word = 0xf ∧ byte word = 0x07 ∧ x = second word
  | awaitKey x => first word = 0xf ∧ byte word = 0x0a ∧ x = second word
  | setDelay x => first word = 0xf ∧ byte word = 0x15 ∧ x = second word
  | setSound x => first word = 0xf ∧ byte word = 0x18 ∧ x = second word
  | addIndex x => first word = 0xf ∧ byte word = 0x1e ∧ x = second word
  | glyph x => first word = 0xf ∧ byte word = 0x29 ∧ x = second word
  | decimal x => first word = 0xf ∧ byte word = 0x33 ∧ x = second word
  | store x => first word = 0xf ∧ byte word = 0x55 ∧ x = second word
  | load x => first word = 0xf ∧ byte word = 0x65 ∧ x = second word
  | undefined w => Undefined word ∧ w = word

theorem encodes_decodeArithmetic {word : UInt16} (h : first word = 0x8) :
    Encodes word (decodeArithmetic word (second word) (third word) (last word)) := by
  have hlast : last word < 0x10 := Nat.mod_lt _ (by decide)
  unfold decodeArithmetic
  split <;> simp only [Encodes, Undefined, and_true, true_and, *]
  simp only [imp_false] at *
  omega

theorem encodes_decodeTransfer {word : UInt16} (h : first word = 0xf) :
    Encodes word (decodeTransfer word (second word) (byte word)) := by
  unfold decodeTransfer
  split <;> simp only [Encodes, Undefined, and_true, true_and, *]
  simp only [imp_false] at *
  simp [*]

/-- **A word encodes the instruction that it is decoded to.** -/
theorem encodes_decode (word : UInt16) : Encodes word (decode word) := by
  have hword : word.toNat < 0x10000 := word.toNat_lt
  unfold decode
  simp only
  -- one case for each first digit, two of which are decoded by functions of their own
  split
  case h_1 h =>
    split
    · rename_i hclear
      exact UInt16.toNat_inj.1 hclear
    · split
      · rename_i hret
        exact UInt16.toNat_inj.1 hret
      · rename_i hclear hret
        refine ⟨.inl ⟨h, ?_, ?_⟩, rfl⟩
        · rintro rfl
          exact hclear rfl
        · rintro rfl
          exact hret rfl
  case h_9 h => exact encodes_decodeArithmetic h
  case h_15 h =>
    split
    · rename_i hdown
      exact ⟨h, hdown, rfl⟩
    · split
      · rename_i hup
        exact ⟨h, hup, rfl⟩
      · rename_i hdown hup
        exact ⟨.inr (.inr (.inl ⟨h, hdown, hup⟩)), rfl⟩
  case h_16 =>
    refine encodes_decodeTransfer ?_
    simp only [imp_false] at *
    unfold first
    omega
  all_goals
    rename_i h
    exact ⟨h, by simp [second, third, last, byte, target]⟩

/-- A word outside of the instruction set is decoded to no instruction. -/
theorem decode_of_undefined {word : UInt16} (h : Undefined word) : decode word = undefined word := by
  obtain ⟨hfirst, hclear, hret⟩ | ⟨hfirst, hlow, hshift⟩ | ⟨hfirst, hdown, hup⟩ | ⟨hfirst, hbyte⟩ := h
  · have hclear' : word.toNat ≠ 0x00e0 := fun h => hclear (UInt16.toNat_inj.1 h)
    have hret' : word.toNat ≠ 0x00ee := fun h => hret (UInt16.toNat_inj.1 h)
    unfold first at hfirst
    simp [decode, hfirst, hclear', hret']
  · have hdecode : decode word = decodeArithmetic word (second word) (third word) (last word) := by
      unfold first at hfirst
      simp only [decode, hfirst, second, third, last]
    rw [hdecode]
    unfold decodeArithmetic
    split
    case h_10 => rfl
    all_goals omega
  · unfold first byte at *
    simp [decode, hfirst, hdown, hup]
  · have hdecode : decode word = decodeTransfer word (second word) (byte word) := by
      unfold first at hfirst
      simp only [decode, hfirst, second, byte]
    rw [hdecode]
    unfold decodeTransfer
    split <;> simp_all

/-- **A word is decoded to the instruction that it encodes.** -/
theorem decode_eq_iff {word : UInt16} {instruction : Instruction} :
    decode word = instruction ↔ instruction.Encodes word := by
  refine ⟨fun h => h ▸ encodes_decode word, fun h => ?_⟩
  cases instruction
  case undefined w =>
    obtain ⟨hundefined, rfl⟩ := h
    exact decode_of_undefined hundefined
  case clearScreen | ret =>
    subst h
    rfl
  all_goals
    simp only [Encodes, first, second, third, last, byte, target] at h
    simp [decode, decodeArithmetic, decodeTransfer, h]

end Instruction

end Chip8
