/-
**Assembly text, read back.**

An instruction is noted by its assembly text: a name, and behind it the operands, which are
registers, numbers in hexadecimal or decimal, and a few symbols.  The names are not enough to tell
the instructions apart, eleven of them load something, and neither are the operands.  But the text
as a whole is.  This module reads it back: the line is cut at its blanks, each operand is read for
itself, and the name and the kinds of the operands select the instruction.  Whatever instruction was
written, with whatever operands, is the one that is read.  So no two instructions have one text.

Words are another matter.  Four families do not look at all of their digits, and two words that
differ only in a digit that is not looked at are the same instruction.  The table of the encoding
says that these are the only ones.

Main definitions:

* `Chip8.Hex.value` — the number that hexadecimal digits write;
* `Chip8.Line.cut` — the name and the operands of a line;
* `Chip8.Operand`, `Chip8.Operand.read` — an operand, and the one that a text stands for;
* `Chip8.Instruction.ofLine?`, `Chip8.Instruction.assemble?` — **the instruction of a line**;
* `Chip8.Word.Alike` — two words differ in a digit that their family does not look at.

Main results:

* `Chip8.Hex.digits_induction` — an induction over the digits of a number;
* `Chip8.Hex.value_map_digits`, `Chip8.Hex.value_padded` — digits are read back;
* `Chip8.Line.cut_append` — a line is cut at its blanks only;
* `Chip8.Instruction.assemble?_mnemonic` — **the text of an instruction is read back**;
* `Chip8.Instruction.decode_eq_decode_iff` — the words of one instruction;
* `Chip8.Instruction.mnemonic_unambiguous` — **disassembly is unambiguous**.
-/
import Chip8.Proofs.Encoding

set_option relaxedAutoImplicit false
set_option autoImplicit false

namespace Chip8

/-! ### Hexadecimal digits -/

namespace Hex

/-- The value of a hexadecimal digit, in lower or upper case. -/
def digitValue (c : Char) : Nat :=
  if c.isDigit then c.toNat - '0'.toNat else c.toLower.toNat - 'a'.toNat + 10

/-- The number that hexadecimal digits write. -/
def value (cs : List Char) : Nat :=
  cs.foldl (fun n c => 16 * n + digitValue c) 0

theorem value_concat (cs : List Char) (c : Char) :
    value (cs ++ [c]) = 16 * value cs + digitValue c := by
  simp [value]

/-- The digits of a number are those of a sixteenth of it, and one more. -/
theorem digits_induction {P : Nat → List Char → Prop} (hone : ∀ n < 16, P n [n.digitChar])
    (hmore : ∀ n, P (n / 16) (digits (n / 16)) → P n (digits (n / 16) ++ [(n % 16).digitChar]))
    (n : Nat) : P n (digits n) := by
  have hdigits : ∀ n, digits n =
      if n < 16 then [n.digitChar] else digits (n / 16) ++ [(n % 16).digitChar] :=
    fun n => Nat.toDigits_eq_if (by decide)
  induction n using Nat.strongRecOn with
  | ind n ih =>
      rw [hdigits]
      split
      · rename_i hlt
        exact hone n hlt
      · exact hmore n (ih (n / 16) (by omega))

/-- There are sixteen digits. -/
theorem mem_digits {n : Nat} : ∀ c ∈ digits n, ∃ d < 16, c = Nat.digitChar d := by
  refine digits_induction (P := fun _ cs => ∀ c ∈ cs, ∃ d < 16, c = Nat.digitChar d) ?_ ?_ n
  · intro n hlt c hc
    exact ⟨n, hlt, List.mem_singleton.1 hc⟩
  · intro n ih c hc
    rcases List.mem_append.1 hc with hrest | hlast
    · exact ih c hrest
    · exact ⟨n % 16, Nat.mod_lt n (by decide), List.mem_singleton.1 hlast⟩

/-- Digits are read back, in whatever style they are written that keeps their values. -/
theorem value_map_digits {style : Char → Char}
    (hstyle : ∀ d < 16, digitValue (style (Nat.digitChar d)) = d) (n : Nat) :
    value ((digits n).map style) = n := by
  refine digits_induction (P := fun n cs => value (cs.map style) = n) ?_ ?_ n
  · intro n hlt
    simp [value, hstyle n hlt]
  · intro n ih
    rw [List.map_append, List.map_singleton, value_concat, ih,
      hstyle _ (Nat.mod_lt n (by decide))]
    omega

theorem value_digits (n : Nat) : value (digits n) = n := by
  have hsame : value ((digits n).map id) = n := value_map_digits (by decide) n
  rwa [List.map_id] at hsame

theorem value_upper (n : Nat) : value ((digits n).map Char.toUpper) = n :=
  value_map_digits (by decide) n

/-- Zeros in front add nothing. -/
theorem value_padded (width n : Nat) : value (padded width n) = n := by
  have hzeros : ∀ k, value (List.replicate k '0') = 0 := by
    intro k
    induction k with
    | zero => rfl
    | succ k ih =>
        rw [List.replicate_succ', value_concat, ih]
        rfl
  have hfold : value (padded width n) =
      (digits n).foldl (fun n c => 16 * n + digitValue c)
        (value (List.replicate (width - (digits n).length) '0')) := List.foldl_append
  rw [hfold, hzeros]
  exact value_digits n

end Hex

/-! ### Lines -/

namespace Line

/-- The name and the operands of a line: it is cut at its blanks, and commas do not count. -/
def cut : List Char → List (List Char)
  | [] => [[]]
  | ' ' :: cs => [] :: cut cs
  | ',' :: cs => cut cs
  | c :: cs => (cut cs).modifyHead (c :: ·)

/-- Characters among which there is no place to cut. -/
def Plain (cs : List Char) : Prop :=
  ∀ c ∈ cs, c ≠ ' ' ∧ c ≠ ','

/-- **A line is cut at its blanks only.** -/
theorem cut_append {front : List Char} (h : Plain front) (cs : List Char) :
    cut (front ++ cs) = (cut cs).modifyHead (front ++ ·) := by
  induction front with
  | nil =>
      rw [List.nil_append]
      rcases cut cs with _ | ⟨word, words⟩
      · rfl
      · rfl
  | cons c front ih =>
      obtain ⟨⟨hblank, hcomma⟩, hrest⟩ := List.forall_mem_cons.1 h
      rw [List.cons_append, cut, ih hrest, List.modifyHead_modifyHead]
      · rfl
      · exact hblank
      · exact hcomma

theorem cut_of_plain {cs : List Char} (h : Plain cs) : cut cs = [cs] := by
  have happend := cut_append h []
  rw [List.append_nil] at happend
  rw [happend]
  simp [cut]

theorem plain_map_digits {style : Char → Char}
    (hstyle : ∀ d < 16, style (Nat.digitChar d) ≠ ' ' ∧ style (Nat.digitChar d) ≠ ',') (n : Nat) :
    Plain ((Hex.digits n).map style) := by
  intro c hc
  obtain ⟨digit, hdigit, rfl⟩ := List.mem_map.1 hc
  obtain ⟨d, hd, rfl⟩ := Hex.mem_digits digit hdigit
  exact hstyle d hd

theorem plain_upper (n : Nat) : Plain ((Hex.digits n).map Char.toUpper) :=
  plain_map_digits (by decide) n

theorem plain_padded (width n : Nat) : Plain (Hex.padded width n) := by
  have hdigits : Plain ((Hex.digits n).map id) := plain_map_digits (by decide) n
  rw [List.map_id] at hdigits
  intro c hc
  rcases List.mem_append.1 hc with hzero | hdigit
  · rw [List.eq_of_mem_replicate hzero]
    decide
  · exact hdigits c hdigit

theorem plain_decimal (n : Nat) : Plain (Nat.toDigits 10 n) := by
  intro c hc
  have hdigit : c.isDigit = true := Nat.isDigit_of_mem_toDigits (by decide) (by decide) hc
  constructor
  · rintro rfl
    simp at hdigit
  · rintro rfl
    simp at hdigit

end Line

/-! ### Operands -/

/-- An operand of an instruction, as it is written. -/
inductive Operand where
  | register (x : Nat)
  /-- A number in hexadecimal. -/
  | literal (n : Nat)
  /-- A number in decimal. -/
  | count (n : Nat)
  | symbol (name : String)

namespace Operand

/-- The operand that a text stands for. -/
def read (text : List Char) : Operand :=
  if text.all Char.isDigit then .count (Nat.ofDigitChars 10 text 0)
  else
    match text with
    | 'V' :: digits => .register (Hex.value digits)
    | '0' :: 'x' :: digits => .literal (Hex.value digits)
    | _ => .symbol (String.ofList text)

theorem read_register (x : Nat) :
    read ('V' :: (Hex.digits x).map Char.toUpper) = .register x := by
  simp [read, Hex.value_upper]

theorem read_literal (width n : Nat) :
    read ('0' :: 'x' :: Hex.padded width n) = .literal n := by
  simp [read, Hex.value_padded]

theorem read_count (n : Nat) : read (Nat.toDigits 10 n) = .count n := by
  have hdigits : (Nat.toDigits 10 n).all Char.isDigit = true := by
    rw [List.all_eq_true]
    intro c hc
    exact Nat.isDigit_of_mem_toDigits (by decide) (by decide) hc
  unfold read
  rw [if_pos hdigits, Nat.ofDigitChars_ten_toDigits]

end Operand

/-! ### Reading an instruction -/

namespace Instruction

/-- The instruction of a name and operands, if there is one. -/
def ofLine? : String → List Operand → Option Instruction
  | "CLS", [] => some clearScreen
  | "RET", [] => some ret
  | "JP", [.literal a] => some (jump (.ofNat a))
  | "JP", [.register 0, .literal a] => some (jumpFrom (.ofNat a))
  | "CALL", [.literal a] => some (call (.ofNat a))
  | "SE", [.register x, .literal b] => some (skipIfByte x (.ofNat b))
  | "SE", [.register x, .register y] => some (skipIfSame x y)
  | "SNE", [.register x, .literal b] => some (skipUnlessByte x (.ofNat b))
  | "SNE", [.register x, .register y] => some (skipUnlessSame x y)
  | "LD", [.register x, .literal b] => some (setByte x (.ofNat b))
  | "LD", [.register x, .register y] => some (copy x y)
  | "LD", [.symbol "I", .literal a] => some (setIndex (.ofNat a))
  | "LD", [.register x, .symbol "DT"] => some (readDelay x)
  | "LD", [.register x, .symbol "K"] => some (awaitKey x)
  | "LD", [.symbol "DT", .register x] => some (setDelay x)
  | "LD", [.symbol "ST", .register x] => some (setSound x)
  | "LD", [.symbol "F", .register x] => some (glyph x)
  | "LD", [.symbol "B", .register x] => some (decimal x)
  | "LD", [.symbol "[I]", .register x] => some (store x)
  | "LD", [.register x, .symbol "[I]"] => some (load x)
  | "ADD", [.register x, .literal b] => some (addByte x (.ofNat b))
  | "ADD", [.register x, .register y] => some (add x y)
  | "ADD", [.symbol "I", .register x] => some (addIndex x)
  | "OR", [.register x, .register y] => some (or x y)
  | "AND", [.register x, .register y] => some (and x y)
  | "XOR", [.register x, .register y] => some (xor x y)
  | "SUB", [.register x, .register y] => some (sub x y)
  | "SUBN", [.register x, .register y] => some (subFrom x y)
  | "SHR", [.register x] => some (shiftRight x)
  | "SHL", [.register x] => some (shiftLeft x)
  | "RND", [.register x, .literal b] => some (random x (.ofNat b))
  | "DRW", [.register x, .register y, .count n] => some (draw x y n)
  | "SKP", [.register x] => some (skipIfKey x)
  | "SKNP", [.register x] => some (skipUnlessKey x)
  | "DW", [.literal w] => some (undefined (.ofNat w))
  | _, _ => none

/-- The instruction that a line of assembly text writes, if it writes one. -/
def assemble? (text : String) : Option Instruction :=
  match Line.cut text.toList with
  | name :: operands => ofLine? (String.ofList name) (operands.map Operand.read)
  | [] => none

open Line Operand in
/-- **The text of an instruction is read back.** -/
theorem assemble?_mnemonic (i : Instruction) : assemble? i.mnemonic = some i := by
  -- the line is cut and its operands are read, then the table of names selects the instruction
  cases i <;>
    simp only [assemble?, mnemonic, register, address, immediate, Hex.upper, Hex.literal]
  all_goals
    simp [cut, cut_append, cut_of_plain, plain_upper, plain_padded, plain_decimal, read_register,
      read_literal, read_count]
  all_goals
    change some _ = some _
    simp

/-- **No two instructions have one text.** -/
theorem mnemonic_injective {i j : Instruction} (h : i.mnemonic = j.mnemonic) : i = j := by
  have hread : some i = some j := by rw [← assemble?_mnemonic i, h, assemble?_mnemonic]
  exact Option.some.inj hread

end Instruction

/-! ### The words of one instruction -/

namespace Word

theorem target_inj {a b : UInt16} : target a = target b ↔ a.toNat % 0x1000 = b.toNat % 0x1000 := by
  unfold target
  rw [← UInt16.toNat_inj, UInt16.toNat_ofNat', UInt16.toNat_ofNat']
  omega

theorem byte_inj {a b : UInt16} :
    UInt8.ofNat (byte a) = UInt8.ofNat (byte b) ↔ byte a = byte b := by
  unfold byte
  rw [← UInt8.toNat_inj, UInt8.toNat_ofNat', UInt8.toNat_ofNat']
  omega

/-- A word is its digits. -/
theorem eq_of_digits {a b : UInt16} (hfirst : first a = first b) (hsecond : second a = second b)
    (hthird : third a = third b) (hlast : last a = last b) : a = b := by
  unfold first second third last at *
  apply UInt16.toNat_inj.1
  omega

theorem eq_of_byte {a b : UInt16} (hfirst : first a = first b) (hsecond : second a = second b)
    (hbyte : byte a = byte b) : a = b := by
  unfold byte at hbyte
  refine eq_of_digits hfirst hsecond ?_ ?_
  · unfold third
    omega
  · unfold last
    omega

theorem eq_of_target {a b : UInt16} (hfirst : first a = first b) (htarget : target a = target b) :
    a = b := by
  rw [target_inj] at htarget
  unfold first at hfirst
  apply UInt16.toNat_inj.1
  omega

/-- Two words of one family agree in all the digits that their family looks at: the last digit of
`5XY_` and of `9XY_` is not looked at, and neither is the third one of `8X_6` and of `8X_E`. -/
def Alike (a b : UInt16) : Prop :=
  first a = first b ∧ second a = second b ∧
    ((first a = 0x5 ∨ first a = 0x9) ∧ third a = third b ∨
      first a = 0x8 ∧ (last a = 0x6 ∨ last a = 0xe) ∧ last a = last b)

instance (a b : UInt16) : Decidable (Alike a b) :=
  inferInstanceAs (Decidable (_ ∧ _))

end Word

namespace Instruction

open Word (first second third last byte target Alike)

/-- Two words of one instruction agree in all the digits that their family looks at. -/
theorem Encodes.eq_or_alike {a b : UInt16} {i : Instruction} (ha : i.Encodes a)
    (hb : i.Encodes b) : a = b ∨ Alike a b := by
  cases i
  case skipIfSame x y | skipUnlessSame x y =>
    obtain ⟨hfirst, rfl, rfl⟩ := ha
    obtain ⟨hfirst', hsecond, hthird⟩ := hb
    exact .inr ⟨by rw [hfirst, hfirst'], hsecond, .inl ⟨by simp [hfirst], hthird⟩⟩
  case shiftRight x | shiftLeft x =>
    obtain ⟨hfirst, hlast, rfl⟩ := ha
    obtain ⟨hfirst', hlast', hsecond⟩ := hb
    exact .inr ⟨by rw [hfirst, hfirst'], hsecond,
      .inr ⟨hfirst, by simp [hlast], by rw [hlast, hlast']⟩⟩
  -- all other families look at all of the digits
  case clearScreen | ret =>
    exact .inl (Eq.trans ha (Eq.symm hb))
  case undefined w =>
    exact .inl (ha.2.symm.trans hb.2)
  case jump addr | call addr | setIndex addr | jumpFrom addr =>
    obtain ⟨hfirst, rfl⟩ := ha
    obtain ⟨hfirst', htarget⟩ := hb
    exact .inl (Word.eq_of_target (hfirst.trans hfirst'.symm) htarget)
  case skipIfByte x v | skipUnlessByte x v | setByte x v | addByte x v | random x v =>
    obtain ⟨hfirst, rfl, rfl⟩ := ha
    obtain ⟨hfirst', hsecond, hbyte⟩ := hb
    exact .inl (Word.eq_of_byte (hfirst.trans hfirst'.symm) hsecond (Word.byte_inj.1 hbyte))
  case draw x y height =>
    obtain ⟨hfirst, rfl, rfl, rfl⟩ := ha
    obtain ⟨hfirst', hsecond, hthird, hlast⟩ := hb
    exact .inl (Word.eq_of_digits (hfirst.trans hfirst'.symm) hsecond hthird hlast)
  case copy x y | or x y | and x y | xor x y | add x y | sub x y | subFrom x y =>
    obtain ⟨hfirst, hlast, rfl, rfl⟩ := ha
    obtain ⟨hfirst', hlast', hsecond, hthird⟩ := hb
    exact .inl (Word.eq_of_digits (hfirst.trans hfirst'.symm) hsecond hthird
      (hlast.trans hlast'.symm))
  all_goals
    obtain ⟨hfirst, hbyte, rfl⟩ := ha
    obtain ⟨hfirst', hbyte', hsecond⟩ := hb
    exact .inl (Word.eq_of_byte (hfirst.trans hfirst'.symm) hsecond (hbyte.trans hbyte'.symm))

theorem Encodes.decode_eq {a b : UInt16} {i : Instruction} (ha : i.Encodes a)
    (hb : i.Encodes b) : decode a = decode b :=
  (decode_eq_iff.2 ha).trans (decode_eq_iff.2 hb).symm

theorem decode_eq_of_alike {a b : UInt16} (h : Alike a b) : decode a = decode b := by
  obtain ⟨hfirst, hsecond, ⟨hskip, hthird⟩ | ⟨hshift, hlow, hlast⟩⟩ := h
  · rcases hskip with hsame | hdiffer
    · have ha : (skipIfSame (second a) (third a)).Encodes a := ⟨hsame, rfl, rfl⟩
      exact ha.decode_eq ⟨hfirst ▸ hsame, hsecond, hthird⟩
    · have ha : (skipUnlessSame (second a) (third a)).Encodes a := ⟨hdiffer, rfl, rfl⟩
      exact ha.decode_eq ⟨hfirst ▸ hdiffer, hsecond, hthird⟩
  · rcases hlow with hright | hleft
    · have ha : (shiftRight (second a)).Encodes a := ⟨hshift, hright, rfl⟩
      exact ha.decode_eq ⟨hfirst ▸ hshift, hlast ▸ hright, hsecond⟩
    · have ha : (shiftLeft (second a)).Encodes a := ⟨hshift, hleft, rfl⟩
      exact ha.decode_eq ⟨hfirst ▸ hshift, hlast ▸ hleft, hsecond⟩

/-- **The words of one instruction** differ in a digit that is not looked at, or not at all. -/
theorem decode_eq_decode_iff {a b : UInt16} : decode a = decode b ↔ a = b ∨ Alike a b := by
  constructor
  · intro h
    exact (decode_eq_iff.1 h).eq_or_alike (encodes_decode b)
  · rintro (rfl | halike)
    · rfl
    · exact decode_eq_of_alike halike

/-- **Disassembly is unambiguous.**  Instructions with one text are one instruction, whatever their
operands are; so the texts of two words are equal just if the words are decoded alike, which they
are if they differ at most in a digit that is not looked at. -/
theorem mnemonic_unambiguous :
    (∀ i j : Instruction, i.mnemonic = j.mnemonic → i = j) ∧
      ∀ a b : UInt16,
        ((decode a).mnemonic = (decode b).mnemonic ↔ decode a = decode b) ∧
          (decode a = decode b ↔ a = b ∨ Alike a b) := by
  constructor
  · intro i j
    exact mnemonic_injective
  · intro a b
    refine ⟨⟨mnemonic_injective, ?_⟩, decode_eq_decode_iff⟩
    intro h
    rw [h]

end Instruction

end Chip8
