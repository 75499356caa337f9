/-
**Control sequences.**

How a surface is brought onto a real terminal: as text with control sequences that switch screens,
move the cursor and choose colours.

Main definitions:

* `Chip8.Ansi.enter`, `Chip8.Ansi.leave` — take a terminal over and give it back;
* `Chip8.Ansi.changes` — the cells in which a surface differs from an earlier one.
-/
import Chip8.Terminal.Surface

set_option relaxedAutoImplicit false
set_option autoImplicit false

namespace Chip8.Ansi

/-- The two characters that begin a sequence. -/
def lead : String :=
  String.ofList [Char.ofNat 27, '[']

/-- Switch to the second screen, blank it and hide the cursor. -/
def enter : String :=
  lead ++ "?1049h" ++ lead ++ "2J" ++ lead ++ "?25l"

/-- Choose the usual colours, show the cursor and switch back. -/
def leave : String :=
  lead ++ "0m" ++ lead ++ "?25h" ++ lead ++ "?1049l"

/-- The number of a colour for characters; the background has the same number plus ten. -/
def colourCode : Colour → Nat
  | .default => 39
  | .black => 30
  | .white => 97

/-- Write a cell at column `x` and row `y`. -/
def cell (x y : Nat) (c : Cell) : String :=
  lead ++ (y + 1).repr ++ ";" ++ (x + 1).repr ++ "H" ++
    lead ++ (colourCode c.fore).repr ++ ";" ++ (colourCode c.back + 10).repr ++ "m" ++
    c.glyph.toString

/-- Write the cells in which two surfaces differ. -/
def changes (before after : Surface) : String :=
  let different := after.cells.toList.zipIdx.filter fun p => before.cells[p.2]? != some p.1
  String.join (different.map fun p => cell (p.2 % after.cols) (p.2 / after.cols) p.1)

end Chip8.Ansi
