/-
**Numbers as they are written.**

A natural number is written with at least one decimal digit, a plus sign being allowed before it
and leading zeros too.  Who reads a number has room for numbers up to a bound.

Main definitions:

* `Chip8.Decimal.digits?` — the number that digits write;
* `Chip8.Decimal.natural?` — a number up to a bound, with a plus sign or without.
-/

set_option relaxedAutoImplicit false
set_option autoImplicit false

namespace Chip8.Decimal

/-- The number that decimal digits write, if there is at least one and nothing else. -/
def digits? (cs : List Char) : Option Nat :=
  if cs ≠ [] ∧ cs.all Char.isDigit then
    some (cs.foldl (fun n c => 10 * n + (c.toNat - '0'.toNat)) 0)
  else none

/-- Digits, with a plus sign or without, of a number up to a bound. -/
def natural? (bound : Nat) (cs : List Char) : Option Nat :=
  let digits :=
    match cs with
    | '+' :: cs => digits? cs
    | cs => digits? cs
  digits.filter (· ≤ bound)

end Chip8.Decimal
