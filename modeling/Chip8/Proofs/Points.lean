/-
**Points on the screen.**

A point may lie off the screen, and each coordinate is brought back once by the size of its axis.
Rows wrap all the way round, however far off a point is, because the numbers of the cells do.  A
column that is still off the screen does not come round in its own row: each further width to the
right takes the point one row down, and each further width to the left one row up.  So a point wraps
in both axes if it is no more than one width off the screen, and a point to the right of the screen
is never in the cell that its coordinates name when the picture is read.

Points are put down one after another, and several of them may meet in a cell.  What a list of points
makes of the picture is a matter of parity and does not depend on their order.  What each of them
answers does: a point puts out a lit cell or not according to those before it.

Main definitions:

* `Chip8.Screen.column`, `Chip8.Screen.row` — the place of a cell;
* `Chip8.Screen.spill` — how many rows a point moves down because of its column;
* `Chip8.Screen.litCells` — how many cells are lit.

Main results:

* `Chip8.Screen.cellAt_eq_iff` — the cell of a point, in closed form;
* `Chip8.Screen.eq_flip_of_checked` — coordinates of thirty-two bits give the same, where they do
  not overflow;
* `Chip8.Screen.flip_wraps` — **a flip inverts the cell in the wrapped column and the spilled row**;
* `Chip8.Screen.answers_flipEach` — what each point of a list answers;
* `Chip8.Screen.litCells_flipEach` — the answers account for the number of lit cells;
* `Chip8.Screen.flipEach_parity` — **a list of points flips the cells that it hits an odd number of
  times**.
-/
import Chip8.Proofs.Checked
import Chip8.Proofs.Sprite
import Mathlib.Algebra.Ring.Parity

set_option relaxedAutoImplicit false
set_option autoImplicit false

namespace Chip8

namespace Screen

/-! ### The cell of a point -/

/-- The column of a cell. -/
def column (cell : Fin 2048) : Nat :=
  cell.val % 64

/-- The row of a cell. -/
def row (cell : Fin 2048) : Nat :=
  cell.val / 64

/-- How many rows a point in column `x` moves down: as many as whole widths are left of `x`, rounded
down, after one was taken off or put on. -/
def spill (x : Int) : Int :=
  if 64 ≤ x then x / 64 - 1 else if x < 0 then x / 64 + 1 else 0

/-- What is left of a column in whole widths, once it has been brought back, spills. -/
theorem wrapOnce_ediv (x : Int) : wrapOnce 64 x / 64 = spill x := by
  unfold wrapOnce spill
  split
  · omega
  · split <;> omega

theorem column_cellAt (x y : Int) : (column (cellAt x y) : Int) = x % 64 := by
  have hx := wrapOnce_emod 64 x
  simp only [column, cellAt]
  omega

theorem row_cellAt (x y : Int) : (row (cellAt x y) : Int) = (y + spill x) % 32 := by
  have hx := wrapOnce_ediv x
  have hy := wrapOnce_emod 32 y
  simp only [row, cellAt]
  omega

/-- The cell of a point is the one in the wrapped column and the spilled row. -/
theorem cellAt_eq_iff {x y : Int} {cell : Fin 2048} :
    cellAt x y = cell ↔ (column cell : Int) = x % 64 ∧ (row cell : Int) = (y + spill x) % 32 := by
  have hcolumn := column_cellAt x y
  have hrow := row_cellAt x y
  constructor
  · rintro rfl
    exact ⟨hcolumn, hrow⟩
  · rintro ⟨hcolumn', hrow'⟩
    refine Fin.ext ?_
    unfold column row at *
    omega

example : cellAt 130 0 = cellAt 2 1 ∧ cellAt (-65) 5 = cellAt 63 4 := by decide

/-- No more than one width off the screen nothing spills. -/
theorem spill_eq_zero {x : Int} (hlow : -64 ≤ x) (hhigh : x < 128) : spill x = 0 := by
  unfold spill
  split
  · omega
  · split <;> omega

/-- There a point wraps in both axes. -/
theorem cellAt_emod {x : Int} (hlow : -64 ≤ x) (hhigh : x < 128) (y : Int) :
    cellAt x y = cellAt (x % 64) (y % 32) := by
  have hleft := spill_eq_zero hlow hhigh
  have hright : spill (x % 64) = 0 := spill_eq_zero (by omega) (by omega)
  rw [cellAt_eq_iff, column_cellAt, row_cellAt, hleft, hright]
  omega

theorem flip_congr {x y x' y' : Int} (h : cellAt x y = cellAt x' y') (s : Screen) :
    s.flip x y = s.flip x' y' := by
  simp only [flip, h]

/-- A flip inverts its own cell. -/
theorem get_flip (s : Screen) (x y : Int) (cell : Fin 2048) :
    (s.flip x y).2.cells.get cell = (s.cells.get cell ^^ decide (cellAt x y = cell)) :=
  s.lit_flip x y cell

/-! ### Reading the picture -/

/-- Reading at the coordinates of a flip looks at the cell that it inverts if and only if the column
is on the screen: further right the flip is one row above the cell that is read. -/
theorem isLit_flip_ne_iff (s : Screen) {x y : Int} (hx : 0 ≤ x) (hy : 0 ≤ y) :
    (s.flip x y).2.isLit x.toNat y.toNat ≠ s.isLit x.toNat y.toNat ↔ x < 64 := by
  have hseen (b : Bool) (p : Prop) [Decidable p] : (b ^^ decide p) ≠ b ↔ p := by
    cases b <;> by_cases h : p <;> simp [h]
  unfold isLit
  rw [lit_flip, hseen, cellAt_eq_iff]
  simp only [column, row, spill]
  split
  · omega
  · split <;> omega

/-! ### Coordinates of thirty-two bits -/

theorem eq_of_int32 {n m : Int} (h : Checked.int32 n = some m) : m = n := by
  unfold Checked.int32 at h
  split at h
  · exact (Option.some.inj h).symm
  · cases h

theorem eq_wrapOnce_of_checked {size n m : Int} (h : wrapOnce? size n = some m) :
    m = wrapOnce size n := by
  unfold wrapOnce? at h
  unfold wrapOnce
  split at h
  · rw [if_pos ‹_›]
    exact eq_of_int32 h
  · rw [if_neg ‹_›]
    split at h
    · rw [if_pos ‹_›]
      exact eq_of_int32 h
    · rw [if_neg ‹_›]
      exact (Option.some.inj h).symm

theorem eq_cellAt_of_checked {x y : Int} {k : Nat} (h : cellAt? x y = some k) :
    k = (cellAt x y).val := by
  simp only [cellAt?, Option.bind_eq_bind, Option.bind_eq_some_iff] at h
  obtain ⟨x', hx, y', hy, above, habove, n, hn, hk⟩ := h
  obtain rfl := eq_wrapOnce_of_checked hx
  obtain rfl := eq_wrapOnce_of_checked hy
  obtain rfl := eq_of_int32 habove
  obtain rfl := eq_of_int32 hn
  exact (Option.some.inj hk).symm

/-- A flip whose coordinates never overflow on the way is the usual one. -/
theorem eq_flip_of_checked {s : Screen} {x y : Int} {result : Bool × Screen}
    (h : s.flip? x y = some result) : result = s.flip x y := by
  simp only [flip?, Option.bind_eq_bind, Option.bind_eq_some_iff] at h
  obtain ⟨k, hk, lit, hlit, cells, hcells, hresult⟩ := h
  obtain rfl := eq_cellAt_of_checked hk
  rw [Vector.getElem?_eq_getElem (cellAt x y).isLt] at hlit
  obtain rfl := Option.some.inj hlit
  rw [Checked.put_eq (cellAt x y).isLt] at hcells
  obtain rfl := Option.some.inj hcells
  exact (Option.some.inj hresult).symm

theorem eq_flipEach_of_checked {s : Screen} {points : List (Int × Int)}
    {result : List Bool × Screen} (h : s.flipEach? points = some result) :
    result = s.flipEach points := by
  induction points generalizing s result with
  | nil => exact (Option.some.inj h).symm
  | cons p points ih =>
      simp only [flipEach?, Option.bind_eq_bind, Option.bind_eq_some_iff] at h
      obtain ⟨first, hfirst, rest, hrest, hresult⟩ := h
      obtain rfl := eq_flip_of_checked hfirst
      obtain rfl := ih hrest
      exact (Option.some.inj hresult).symm

/-! ### One point -/

/-- **A flip inverts the cell in the wrapped column and the spilled row** and no other, and tells
whether it was lit.  Coordinates of thirty-two bits give the same as long as they do not overflow.
No more than one width off the screen a point wraps in both axes.  Reading at the coordinates of a
flip looks at the cell that it inverts if and only if the column is on the screen. -/
theorem flip_wraps (s : Screen) (x y : Int) :
    (∀ cell : Fin 2048, (s.flip x y).2.cells.get cell =
      (s.cells.get cell ^^
        decide ((column cell : Int) = x % 64 ∧ (row cell : Int) = (y + spill x) % 32))) ∧
    ((s.flip x y).1 = true ↔ ∃ cell : Fin 2048,
      ((column cell : Int) = x % 64 ∧ (row cell : Int) = (y + spill x) % 32) ∧
        s.cells.get cell = true) ∧
    (∀ result, s.flip? x y = some result → result = s.flip x y) ∧
    (-64 ≤ x → x < 128 → s.flip x y = s.flip (x % 64) (y % 32)) ∧
    (0 ≤ x → 0 ≤ y →
      ((s.flip x y).2.isLit x.toNat y.toNat ≠ s.isLit x.toNat y.toNat ↔ x < 64)) := by
  refine ⟨?_, ?_, ?_, ?_, ?_⟩
  · intro cell
    simp only [get_flip, cellAt_eq_iff]
  · simp only [← cellAt_eq_iff, exists_eq_left']
    rfl
  · intro result h
    exact eq_flip_of_checked h
  · intro hlow hhigh
    exact flip_congr (cellAt_emod hlow hhigh y) s
  · intro hx hy
    exact s.isLit_flip_ne_iff hx hy

theorem flip_wraps_oneWidthOff :
    blank.flip 127 100 = blank.flip 63 4 ∧
      (blank.flip 127 100).2.isLit 127 100 = blank.isLit 127 100 ∧
      ∃ result, blank.flip? 127 100 = some result ∧ result = blank.flip 127 100 := by
  obtain ⟨-, -, hchecked, hwrap, hread⟩ := flip_wraps blank 127 100
  have hresult : blank.flip? 127 100 = some (blank.flip 127 100) :=
    blank.flip?_eq ⟨by decide, by decide⟩ ⟨by decide, by decide⟩
  refine ⟨hwrap (by decide) (by decide), ?_, _, hresult, hchecked _ hresult⟩
  have hunseen := (hread (by decide) (by decide)).not.2 (by decide)
  exact not_not.1 hunseen

/-! ### Many points -/

/-- One more point changes the parity of the hits on its own cell. -/
theorem odd_hits_cons (p : Int × Int) (points : List (Int × Int)) (cell : Fin 2048) :
    decide (Odd (hits (p :: points) cell)) =
      (decide (cellAt p.1 p.2 = cell) ^^ decide (Odd (hits points cell))) := by
  rw [hits_cons]
  by_cases h : cellAt p.1 p.2 = cell
  · rw [if_pos h, decide_eq_true h, Bool.true_xor, ← decide_not]
    exact decide_eq_decide.2 Nat.odd_add_one
  · rw [if_neg h, decide_eq_false h, Bool.false_xor, Nat.add_zero]

/-- A list of points flips the cells that it hits an odd number of times. -/
theorem cells_flipEach (s : Screen) (points : List (Int × Int)) (cell : Fin 2048) :
    (s.flipEach points).2.cells.get cell =
      (s.cells.get cell ^^ decide (Odd (hits points cell))) := by
  have hparity : (hits points cell % 2 == 1) = decide (Odd (hits points cell)) := by
    rw [Bool.eq_iff_iff]
    simp [Nat.odd_iff]
  rw [← hparity]
  exact s.lit_flipEach points cell

theorem eq_of_cells {s t : Screen} (h : ∀ cell : Fin 2048, s.cells.get cell = t.cells.get cell) :
    s = t := by
  obtain ⟨cells⟩ := s
  obtain ⟨cells'⟩ := t
  congr 1
  exact Vector.ext fun k hk => h ⟨k, hk⟩

/-- The order of the points does not matter to the picture. -/
theorem flipEach_perm (s : Screen) {points points' : List (Int × Int)}
    (h : points.Perm points') : (s.flipEach points').2 = (s.flipEach points).2 := by
  refine eq_of_cells fun cell => ?_
  have hhits : hits points' cell = hits points cell := (h.countP_eq _).symm
  rw [cells_flipEach, cells_flipEach, hhits]

/-- The same points once more put everything back. -/
theorem flipEach_twice (s : Screen) (points : List (Int × Int)) :
    ((s.flipEach points).2.flipEach points).2 = s := by
  refine eq_of_cells fun cell => ?_
  rw [cells_flipEach, cells_flipEach, Bool.xor_assoc, Bool.xor_self, Bool.xor_false]

/-! ### What the points answer -/

/-- A point puts out a lit cell if its cell was lit and the points before it hit the cell an even
number of times, or if it was dark and they hit it an odd number of times. -/
theorem answers_flipEach (s : Screen) (points : List (Int × Int)) (k : Nat) :
    (s.flipEach points).1[k]? = points[k]?.map fun p =>
      s.cells.get (cellAt p.1 p.2) ^^ decide (Odd (hits (points.take k) (cellAt p.1 p.2))) := by
  induction points generalizing s k with
  | nil => rfl
  | cons p points ih =>
      rw [flipEach_cons]
      cases k with
      | zero => simp [flip, Vector.get]
      | succ k =>
          rw [List.getElem?_cons_succ, List.getElem?_cons_succ, ih]
          refine Option.map_congr fun q _ => ?_
          rw [get_flip, Bool.xor_assoc, ← odd_hits_cons, List.take_succ_cons]

/-- How many cells are lit. -/
def litCells (s : Screen) : Nat :=
  s.cells.count true

/-- A flip puts out a lit cell or lights a dark one. -/
theorem litCells_flip (s : Screen) (x y : Int) :
    (s.flip x y).2.litCells + (s.flip x y).1.toNat =
      s.litCells + (!(s.flip x y).1).toNat := by
  unfold litCells flip
  rw [Vector.count_set]
  cases h : s.cells[cellAt x y] with
  | false => simp
  | true =>
      have hpos : 0 < s.cells.count true :=
        Vector.count_pos_iff.2 (h ▸ Vector.getElem_mem (cellAt x y).isLt)
      simpa using Nat.sub_add_cancel hpos

/-- Each answer accounts for one cell more or less. -/
theorem litCells_flipEach (s : Screen) (points : List (Int × Int)) :
    (s.flipEach points).2.litCells + (s.flipEach points).1.count true =
      s.litCells + (s.flipEach points).1.count false := by
  induction points generalizing s with
  | nil => rfl
  | cons p points ih =>
      have hlit (b : Bool) (bs : List Bool) : (b :: bs).count true = bs.count true + b.toNat := by
        cases b <;> simp
      have hdark (b : Bool) (bs : List Bool) :
          (b :: bs).count false = bs.count false + (!b).toNat := by
        cases b <;> simp
      have hfirst := s.litCells_flip p.1 p.2
      have hrest := ih (s.flip p.1 p.2).2
      simp only [flipEach_cons, hlit, hdark]
      omega

/-- Two points in one cell answer in turn: the first of them as the picture is, and the second the
other way round. -/
theorem answers_depend_on_order (s : Screen) :
    (s.flipEach [(0, 0), (64, 0)]).1[0]? ≠ (s.flipEach [(64, 0), (0, 0)]).1[1]? := by
  have hsame : cellAt 64 0 = cellAt 0 0 := by decide
  rw [answers_flipEach, answers_flipEach]
  simp [hits_cons, hsame]

/-- **A list of points flips the cells that it hits an odd number of times.**  So the picture does
not depend on the order of the points, and the same points once more put everything back.  A point
answers for its own cell and those before it: the answers do depend on the order, and yet the number
of lit cells goes up by one for each answer that nothing was put out, and down by one for each answer
that something was.  Coordinates of thirty-two bits give the same as long as they do not overflow. -/
theorem flipEach_parity (s : Screen) (points : List (Int × Int)) :
    (∀ cell : Fin 2048, (s.flipEach points).2.cells.get cell =
      (s.cells.get cell ^^ decide (Odd (hits points cell)))) ∧
    (∀ points', points.Perm points' → (s.flipEach points').2 = (s.flipEach points).2) ∧
    ((s.flipEach points).2.flipEach points).2 = s ∧
    (s.flipEach points).2.litCells + (s.flipEach points).1.count true =
      s.litCells + (s.flipEach points).1.count false ∧
    (∀ k : Nat, (s.flipEach points).1[k]? = points[k]?.map fun p =>
      s.cells.get (cellAt p.1 p.2) ^^ decide (Odd (hits (points.take k) (cellAt p.1 p.2)))) ∧
    (∃ p q : Int × Int, p ≠ q ∧ (s.flipEach [p, q]).1[0]? ≠ (s.flipEach [q, p]).1[1]?) ∧
    (∀ result, s.flipEach? points = some result → result = s.flipEach points) := by
  refine ⟨?_, ?_, ?_, ?_, ?_, ?_, ?_⟩
  · exact s.cells_flipEach points
  · intro points' hperm
    exact s.flipEach_perm hperm
  · exact s.flipEach_twice points
  · exact s.litCells_flipEach points
  · exact s.answers_flipEach points
  · exact ⟨(0, 0), (64, 0), by decide, s.answers_depend_on_order⟩
  · intro result h
    exact eq_flipEach_of_checked h

theorem flipEach_parity_meetingPoints :
    [((0 : Int), (0 : Int)), (64, 0), (1, 0)].Perm [(1, 0), (64, 0), (0, 0)] ∧
      (blank.flipEach [(1, 0), (64, 0), (0, 0)]).2 =
        (blank.flipEach [(0, 0), (64, 0), (1, 0)]).2 ∧
      (blank.flipEach [(0, 0), (64, 0), (1, 0)]).2.litCells = 1 ∧
      ∃ result, blank.flipEach? [(0, 0), (64, 0), (1, 0)] = some result ∧
        result = blank.flipEach [(0, 0), (64, 0), (1, 0)] := by
  obtain ⟨-, hperm, -, hcount, -, -, hchecked⟩ :=
    flipEach_parity blank [(0, 0), (64, 0), (1, 0)]
  have hswap : [((0 : Int), (0 : Int)), (64, 0), (1, 0)].Perm [(1, 0), (64, 0), (0, 0)] := by
    decide
  have hresult : blank.flipEach? [(0, 0), (64, 0), (1, 0)] =
      some (blank.flipEach [(0, 0), (64, 0), (1, 0)]) := by
    refine blank.flipEach?_eq fun p hp => ?_
    simp only [List.mem_cons, List.not_mem_nil, or_false] at hp
    rcases hp with rfl | rfl | rfl
    all_goals exact ⟨⟨by decide, by decide⟩, ⟨by decide, by decide⟩⟩
  have hdark : blank.litCells = 0 := by
    simp [litCells, blank, Vector.count_replicate]
  have hanswers : (blank.flipEach [(0, 0), (64, 0), (1, 0)]).1 = [false, true, false] := by
    decide +kernel
  have hone : [false, true, false].count true = 1 := rfl
  have htwo : [false, true, false].count false = 2 := rfl
  rw [hdark, hanswers, hone, htwo] at hcount
  exact ⟨hswap, hperm _ hswap, by omega, _, hresult, hchecked _ hresult⟩

end Screen

end Chip8
