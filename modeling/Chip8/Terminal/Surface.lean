/-
**The surface of a terminal.**

A grid of cells, each with a character and two colours, a cursor that can be hidden, and a second
screen that programs switch to.

Main definitions:

* `Chip8.Colour`, `Chip8.Cell` — what a cell shows;
* `Chip8.Surface` — the grid, with `enter`, `leave`, `resize` and `update`.

Main result: `Chip8.Surface.update_self`, where nothing changes nothing is written.
-/
import Chip8.Terminal.Extent

set_option relaxedAutoImplicit false
set_option autoImplicit false

namespace Chip8

/-- The colours that are used. -/
inductive Colour where
  | default
  | black
  | white
deriving DecidableEq, Repr

/-- What a cell shows. -/
structure Cell where
  glyph : Char
  fore : Colour
  back : Colour
deriving DecidableEq, Repr

namespace Cell

/-- Nothing at all. -/
def blank : Cell :=
  ⟨' ', .default, .default⟩

end Cell

/-- The surface of a terminal. -/
structure Surface where
  cols : Nat
  rows : Nat
  /-- The cells, row after row. -/
  cells : Array Cell
  /-- Whether the second screen is shown. -/
  alternate : Bool
  cursor : Bool
deriving DecidableEq

namespace Surface

/-- The columns and rows. -/
def extent (s : Surface) : Extent :=
  ⟨s.cols, s.rows⟩

/-- A blank grid of cells. -/
def blankCells (e : Extent) : Array Cell :=
  Array.replicate e.cells .blank

/-- A blank terminal in its usual mode. -/
def new (cols rows : Nat) : Surface :=
  ⟨cols, rows, blankCells ⟨cols, rows⟩, false, true⟩

/-- Blank all cells. -/
def clear (s : Surface) : Surface :=
  { s with cells := blankCells s.extent }

/-- Switch to the second screen, which is blank, and hide the cursor. -/
def enter (s : Surface) : Surface :=
  { s.clear with alternate := true, cursor := false }

/-- Switch back and show the cursor; the cells stay as they are. -/
def leave (s : Surface) : Surface :=
  { s with alternate := false, cursor := true }

/-- Another size; the cells go blank. -/
def resize (s : Surface) (cols rows : Nat) : Surface :=
  { s with cols := cols, rows := rows, cells := blankCells ⟨cols, rows⟩ }

/-- Where the cell with a number lies in the top left part with the given number of columns: its
number there, unless it lies to the right of that part. -/
def within (s : Surface) (cols n : Nat) : Option Nat :=
  if n % s.cols < cols then some (n % s.cols + n / s.cols * cols) else none

/-- Write the cells that differ between what was there and what is to be there, in the top left
part with the given number of columns. -/
def update (s : Surface) (cols : Nat) (before after : Array Cell) : Surface :=
  { s with
    cells := s.cells.mapIdx fun n c =>
      match s.within cols n with
      | some k =>
        match after[k]? with
        | some a => if before[k]? = some a then c else a
        | none => c
      | none => c }

/-- Where nothing was to be seen and nothing is to be, nothing is written. -/
theorem update_self (s : Surface) (cols : Nat) (cells : Array Cell) :
    s.update cols cells cells = s := by
  have h : (s.cells.mapIdx fun n c =>
      match s.within cols n with
      | some k =>
        match cells[k]? with
        | some a => if cells[k]? = some a then c else a
        | none => c
      | none => c) = s.cells := by
    apply Array.ext
    · simp
    · intro n h₁ h₂
      simp only [Array.getElem_mapIdx]
      split
      · split
        · rename_i k _ a ha
          simp [ha]
        · rfl
      · rfl
  simp only [update, h]

end Surface

end Chip8
