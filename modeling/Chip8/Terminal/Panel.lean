/-
**A panel on a terminal.**

A display that paints its picture into a box at the top left of a terminal, one cell for each
pixel; a box that would be too large is capped, and the picture shrunk into it.  The panel
remembers what it painted last and writes only the cells that have changed; when there is another
part of the terminal to paint on it starts again from a blank one.

Main definitions:

* `Chip8.Panel` — the display and the surface that it paints on;
* `Chip8.Panel.points` — where the pixels of a value lie, rows counted downwards from zero;
* `Chip8.Panel.frame`, `Chip8.Panel.spot` — the box, and where in it a point is shown;
* `Chip8.Panel.compose` — the cells of a picture: the box, then the dark and the lit points;
* `Chip8.Panel.render`, `Chip8.Panel.clear` — the operations of a display.

Main results:

* `Chip8.Panel.spread_self` — in a box that is not capped points are where the pixels are;
* `Chip8.Panel.render_of_ne` — a picture of the wrong size is refused unpainted.
-/
import Chip8.Device
import Chip8.Terminal.Surface

set_option relaxedAutoImplicit false
set_option autoImplicit false

namespace Chip8

/-- A display in a box on a terminal. -/
structure Panel where
  /-- How many pixels a row has. -/
  width : Nat
  height : Nat
  surface : Surface
  /-- The part of the terminal that was last painted on. -/
  canvas : Extent
  /-- The cells as they were last painted. -/
  painted : Array Cell
deriving DecidableEq

namespace Panel

/-- The words above the picture. -/
def title : List Char :=
  ['C', 'H', 'I', 'P', '-', '8']

/-- How many pixels there are. -/
def pixelCount (p : Panel) : Nat :=
  p.width * p.height

/-- Take a terminal over. -/
def attach (width height : Nat) (surface : Surface) : Panel :=
  ⟨width, height, surface.enter, surface.extent.capped,
    Surface.blankCells surface.extent.capped⟩

/-- Give the terminal back. -/
def detach (p : Panel) : Surface :=
  p.surface.leave

/-! ### Pictures -/

/-- Where the pixels of a value lie: the column, and the row counted downwards from zero. -/
def points (width : Nat) (pixels : List UInt8) (value : UInt8) : List (Int × Int) :=
  (pixels.zipIdx.filter fun p => p.1 == value).map fun p =>
    (((p.2 % width : Nat) : Int), -((p.2 / width : Nat) : Int))

/-- The box around a picture of the given size. -/
def frame (width height : Nat) : Extent :=
  Extent.capped ⟨width + 2, height + 2⟩

/-- The character of a box at column `x` and row `y`. -/
def boxGlyph (box : Extent) (x y : Nat) : Char :=
  let right := box.cols - 1
  let bottom := box.rows - 1
  if y = 0 then
    if 1 ≤ x ∧ x < right ∧ x ≤ title.length then title.getD (x - 1) '─'
    else if x = 0 then '┌'
    else if x = right then '┐'
    else '─'
  else if y = bottom then
    if x = 0 then '└' else if x = right then '┘' else '─'
  else if x = 0 ∨ x = right then '│'
  else ' '

/-- The cells of a canvas with an empty box on it. -/
def drawBox (canvas box : Extent) : Array Cell :=
  Array.ofFn fun n : Fin canvas.cells =>
    let x := n.val % canvas.cols
    let y := n.val / canvas.cols
    if x < box.cols ∧ y < box.rows then ⟨boxGlyph box x y, .default, .black⟩ else .blank

/-- A distance along a side of `length` points, measured on one of `room` points: the ends lie on
the ends. -/
def spread (length room : Nat) (distance : Int) : Int :=
  distance * ((room : Int) - 1) / ((length : Int) - 1)

/-- Where on a canvas a point lies inside of a box, if the box has an inside. -/
def spot (width height : Nat) (canvas box : Extent) (p : Int × Int) : Option Nat :=
  let x := spread width (box.cols - 2) p.1
  let y := spread height (box.rows - 2) (-p.2)
  if 2 < box.cols ∧ 2 < box.rows then some (x + 1 + (y + 1) * (canvas.cols : Int)).toNat else none

/-- Dots of one colour on numbered cells. -/
def drawDots (colour : Colour) (spots : List Nat) (cells : Array Cell) : Array Cell :=
  spots.foldl (fun cells n => cells.setIfInBounds n ⟨'▄', colour, .default⟩) cells

/-- The cells of a picture: the box, then the dark and then the lit points.  A picture of a single
row or column has no extent to be spread over, and its points are left out. -/
def compose (width height : Nat) (canvas : Extent) (pixels : List UInt8) : Array Cell :=
  let box := frame width height
  let empty := drawBox canvas box
  let spots (value : UInt8) := (points width pixels value).filterMap (spot width height canvas box)
  if width = 1 ∨ height = 1 then empty
  else drawDots .white (spots 1) (drawDots .black (spots 0) empty)

/-- With a point for each cell distances are kept. -/
theorem spread_self {length : Nat} (h : length ≠ 1) (distance : Int) :
    spread length length distance = distance := by
  simp only [spread]
  exact Int.mul_ediv_cancel _ (by omega)

/-! ### Painting -/

/-- Start again from a blank terminal if there is another part of it to paint on. -/
def adapt (p : Panel) : Panel :=
  let canvas := p.surface.extent.capped
  if p.canvas = canvas then p
  else
    { p with
      surface := p.surface.clear
      canvas := canvas
      painted := Surface.blankCells canvas }

/-- Paint a picture. -/
def paint (p : Panel) (pixels : List UInt8) : Panel :=
  let p := p.adapt
  let cells := compose p.width p.height p.canvas pixels
  { p with surface := p.surface.update p.canvas.cols p.painted cells, painted := cells }

/-- Paint a picture of the right size. -/
def render (p : Panel) (pixels : List UInt8) : Except IoFailure Unit × Panel :=
  if pixels.length = p.pixelCount then (.ok (), p.paint pixels)
  else
    (.error (.invalidInput
      ("MonoTermDisplay expects " ++ p.pixelCount.repr ++ " pixels, got " ++ pixels.length.repr)),
      p)

/-- Paint a dark picture. -/
def clear (p : Panel) : Panel :=
  p.paint (List.replicate p.pixelCount 0)

instance : DisplayDevice Panel where
  render := render
  clear p := (.ok (), p.clear)

/-! ### Laws -/

/-- A picture of the wrong size is refused unpainted. -/
theorem render_of_ne {p : Panel} {pixels : List UInt8} (h : pixels.length ≠ p.pixelCount) :
    ∃ message, p.render pixels = (.error (.invalidInput message), p) := by
  simp [render, h]

theorem render_of_eq {p : Panel} {pixels : List UInt8} (h : pixels.length = p.pixelCount) :
    p.render pixels = (.ok (), p.paint pixels) := by
  simp [render, h]

end Panel

end Chip8
