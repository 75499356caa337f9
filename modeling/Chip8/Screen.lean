/-
**The screen.**

A picture of 64 by 32 cells, each dark or lit, row after row from the top.  Drawing flips cells.  A
coordinate off the edge is brought back once by the size of the screen; what still lies outside
spills over into other rows, and the cell numbers wrap at the end of the picture.

Main definitions:

* `Chip8.Screen` — the cells;
* `Chip8.Screen.cellAt` — the cell that a pair of coordinates names;
* `Chip8.Screen.flip`, `Chip8.Screen.flipEach` — flip one cell, or a list of them in order, telling
  for each whether it was lit;
* `Chip8.Screen.pixels` — the picture as bytes, one for lit and zero for dark.

Main results: `Chip8.Screen.lit_flip`, what a flip does to each cell, `Chip8.Screen.pixels_flip`,
what it does to the bytes, and `Chip8.Screen.length_pixels`, `Chip8.Screen.pixels_le_one`, the shape
of the picture.
-/

set_option relaxedAutoImplicit false
set_option autoImplicit false

namespace Chip8

/-- The cells of the picture, row after row. -/
structure Screen where
  /-- For each cell, whether it is lit. -/
  cells : Vector Bool 2048
deriving DecidableEq

namespace Screen

/-- How many columns there are. -/
abbrev width : Nat :=
  64

/-- How many rows there are. -/
abbrev height : Nat :=
  32

/-- All cells dark. -/
def blank : Screen :=
  ⟨Vector.replicate 2048 false⟩

/-! ### Coordinates -/

/-- Bring a coordinate back by the size of its axis, once. -/
def wrapOnce (size n : Int) : Int :=
  if size ≤ n then n - size else if n < 0 then n + size else n

/-- The number of the cell at column `x` and row `y`. -/
def cellAt (x y : Int) : Fin 2048 :=
  ⟨((wrapOnce 64 x + 64 * wrapOnce 32 y) % 2048).toNat, by omega⟩

/-- Whether the cell in column `x` of row `y` is lit, counting on past the end of a row. -/
def isLit (s : Screen) (x y : Nat) : Bool :=
  s.cells[(⟨(x + 64 * y) % 2048, Nat.mod_lt _ (by decide)⟩ : Fin 2048)]

/-! ### Drawing -/

/-- Flip a cell, and tell whether that put out a lit one. -/
def flip (s : Screen) (x y : Int) : Bool × Screen :=
  (s.cells[cellAt x y], ⟨s.cells.set (cellAt x y) (!s.cells[cellAt x y])⟩)

/-- Flip cells one after another, and tell of each whether that put out a lit one. -/
def flipEach (s : Screen) : List (Int × Int) → List Bool × Screen
  | [] => ([], s)
  | (x, y) :: points =>
    let (erased, s) := s.flip x y
    let (rest, s) := s.flipEach points
    (erased :: rest, s)

/-- The picture as bytes. -/
def pixels (s : Screen) : List UInt8 :=
  s.cells.toList.map Bool.toUInt8

/-! ### Laws -/

/-- A flip inverts the cell it names and no other. -/
theorem lit_flip (s : Screen) (x y : Int) (c : Fin 2048) :
    (s.flip x y).2.cells[c] = (s.cells[c] ^^ decide (cellAt x y = c)) := by
  by_cases h : cellAt x y = c
  · subst h
    simp [flip]
  · have hne : (cellAt x y).val ≠ c.val := fun e => h (Fin.ext e)
    simp [flip, h, hne]

@[simp]
theorem flipEach_nil (s : Screen) : s.flipEach [] = ([], s) := rfl

theorem flipEach_cons (s : Screen) (p : Int × Int) (points : List (Int × Int)) :
    s.flipEach (p :: points) =
      ((s.flip p.1 p.2).1 :: ((s.flip p.1 p.2).2.flipEach points).1,
        ((s.flip p.1 p.2).2.flipEach points).2) := rfl

@[simp]
theorem length_pixels (s : Screen) : s.pixels.length = 2048 := by
  simp [pixels]

/-- A picture holds zeros and ones only. -/
theorem pixels_le_one (s : Screen) {p : UInt8} (h : p ∈ s.pixels) : p = 0 ∨ p = 1 := by
  obtain ⟨b, _, rfl⟩ := List.mem_map.1 h
  cases b
  · exact Or.inl rfl
  · exact Or.inr rfl

/-- In the bytes of the picture a flip is an exclusive or with one, and it put out a lit cell if that
leaves zero. -/
theorem pixels_flip (s : Screen) (x y : Int) :
    (s.flip x y).2.pixels = s.pixels.modify (cellAt x y) (· ^^^ 1) ∧
      ((s.flip x y).1 = true ↔ (s.flip x y).2.pixels[(cellAt x y).val]? = some 0) := by
  have hinvert : ∀ b : Bool, b.toUInt8 ^^^ 1 = (!b).toUInt8 := by decide
  have hzero : ∀ b : Bool, b = true ↔ (!b).toUInt8 = 0 := by decide
  constructor
  · refine List.ext_getElem? fun n => ?_
    rw [List.getElem?_modify]
    by_cases h : (cellAt x y).val = n
    · subst h
      simp [flip, pixels, hinvert]
    · simp [flip, pixels, h]
  · rw [hzero]
    simp [flip, pixels]

end Screen

end Chip8
