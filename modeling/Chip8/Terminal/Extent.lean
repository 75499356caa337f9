/-
**Columns and rows.**

Terminals, and boxes on them, are so many columns wide and so many rows high.  What is painted on
holds at most 65535 cells: of a larger extent only the top left part is used, of about the same
proportions.

Main definitions:

* `Chip8.Extent` — columns and rows, with `Chip8.Extent.cells` for how many cells that makes;
* `Chip8.Extent.capped` — the part that is painted on.

Main result: `Chip8.Extent.capped_of_le`, an extent within the limit is used in full.
-/

set_option relaxedAutoImplicit false
set_option autoImplicit false

namespace Chip8

/-- How wide and how high something is. -/
structure Extent where
  cols : Nat
  rows : Nat
deriving DecidableEq, Repr

namespace Extent

/-- How many cells there are. -/
def cells (e : Extent) : Nat :=
  e.cols * e.rows

/-- The most cells that are painted on. -/
def cellLimit : Nat :=
  65535

/-- The part that is painted on.  Of an extent beyond the limit this is the largest part with its
proportions, found in double precision and rounded down to whole columns and rows. -/
def capped (e : Extent) : Extent :=
  if e.cells ≤ cellLimit then e
  else
    let proportion := Float.ofNat e.cols / Float.ofNat e.rows
    let height := (Float.ofNat cellLimit / proportion).sqrt
    ⟨(height * proportion).toUInt16.toNat, height.toUInt16.toNat⟩

/-- An extent within the limit is used in full. -/
theorem capped_of_le {e : Extent} (h : e.cells ≤ cellLimit) : e.capped = e :=
  if_pos h

end Extent

end Chip8
