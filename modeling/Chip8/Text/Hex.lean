/-
**Hexadecimal text.**

The machine speaks of its words in hexadecimal: lower-case digits for addresses, bytes and opcodes,
one upper-case digit for the number of a register.  A number is written with the fewest digits that
hold it, padded on the left with zeros up to a least count where a fixed column is wanted.

Main definitions:

* `Chip8.Hex.digits` — the shortest lower-case digits of a number;
* `Chip8.Hex.padded` — the same, filled up to a least count with zeros;
* `Chip8.Hex.literal` — the padded digits behind `0x`;
* `Chip8.Hex.upper` — the shortest upper-case digits.
-/

set_option relaxedAutoImplicit false
set_option autoImplicit false

namespace Chip8.Hex

/-- The shortest lower-case hexadecimal digits of `n`, most significant first. -/
def digits (n : Nat) : List Char :=
  Nat.toDigits 16 n

/-- The digits of `n`, filled up on the left with zeros to at least `width` of them. -/
def padded (width n : Nat) : List Char :=
  (digits n).leftpad width '0'

/-- `0x` and the digits of `n`, at least `width` of them. -/
def literal (width n : Nat) : String :=
  "0x" ++ String.ofList (padded width n)

/-- The shortest upper-case hexadecimal digits of `n`. -/
def upper (n : Nat) : String :=
  String.ofList ((digits n).map Char.toUpper)

end Chip8.Hex
