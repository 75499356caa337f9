/-
**Painting on a terminal.**

A panel is given a picture as one row of bytes, and in the end a terminal shows a box with a dot for
each of them.  On the way the bytes are gone through twice, once for the points of the dark pixels
and once for those of the lit ones.  A point is made of the remainder and the quotient of the number
of its pixel by the width, so nothing but arithmetic keeps the rows apart.  Then the dots are put on
an empty box, the dark ones first, and the terminal is told only of the cells that differ from what
was put together the last time.

Nothing gets lost on the way and nothing comes twice.  The points of both colours together are the
grid, each point of it once.  Where the terminal has room for the box, no two points share a cell,
and since what the panel remembers of the last picture is what the terminal shows, no cell keeps an
older dot.  Sizes are counted without a limit here; a terminal has at most 65535 columns and rows.

Main definitions:

* `Chip8.Panel.pointOf`, `Chip8.Panel.cellOf` — the point and the cell of a pixel;
* `Chip8.Panel.Fits` — a terminal has room for the box of a picture;
* `Chip8.Panel.InStep` — what a panel remembers is what its terminal shows;
* `Chip8.Panel.Shows` — a terminal shows a picture in its box and nothing else.

Main results:

* `Chip8.Panel.points_perm` — the dark and the lit points are those of all pixels;
* `Chip8.Panel.Fits.compose_inside`, `Chip8.Panel.Fits.compose_outside` — what is put together has a
  dot for each pixel, and the box around them;
* `Chip8.Panel.InStep.paint`, `Chip8.Panel.InStep.of_reaches` — a panel stays in step with its
  terminal, whatever it is asked for;
* `Chip8.Panel.picture_shown` — **a picture shows on the terminal**, dot by dot;
* `Chip8.Panel.picture_covers` — **a picture covers the grid, each point once**.
-/
import Chip8.Proofs.Pacing
import Chip8.Terminal.Panel
import Mathlib.Data.List.Nodup

set_option relaxedAutoImplicit false
set_option autoImplicit false

namespace Chip8

namespace Panel

variable {width height : Nat} {pixels : List UInt8} {value : UInt8}

/-! ### The points of a picture -/

/-- The point of the pixel with a number. -/
def pointOf (width n : Nat) : Int × Int :=
  (((n % width : Nat) : Int), -((n / width : Nat) : Int))

/-- The number of a pixel is made of its column and its row, so a point tells its pixel. -/
theorem pointOf_injective (width : Nat) : Function.Injective (pointOf width) := by
  intro n k h
  obtain ⟨hcolumn, hrow⟩ := Prod.mk.inj h
  have hcolumn' : n % width = k % width := Int.ofNat.inj hcolumn
  have hrow' : n / width = k / width := by omega
  calc n = n % width + width * (n / width) := (Nat.mod_add_div n width).symm
    _ = k % width + width * (k / width) := by rw [hcolumn', hrow']
    _ = k := Nat.mod_add_div k width

theorem pointOf_add {x : Nat} (hx : x < width) (y : Nat) :
    pointOf width (x + width * y) = ((x : Int), -(y : Int)) := by
  have hcolumn : (x + width * y) % width = x := by
    rw [Nat.add_mul_mod_self_left, Nat.mod_eq_of_lt hx]
  have hrow : (x + width * y) / width = y := by
    rw [Nat.add_mul_div_left x y (by omega), Nat.div_eq_of_lt hx, Nat.zero_add]
  rw [pointOf, hcolumn, hrow]

theorem number_lt {x y : Nat} (hx : x < width) (hy : y < height) :
    x + width * y < width * height :=
  calc x + width * y < width + width * y := Nat.add_lt_add_right hx _
    _ = width * (y + 1) := by rw [Nat.mul_succ, Nat.add_comm]
    _ ≤ width * height := Nat.mul_le_mul_left width hy

/-- The points of a value are those of the pixels that have it. -/
theorem mem_points_iff {q : Int × Int} :
    q ∈ points width pixels value ↔ ∃ n, pixels[n]? = some value ∧ pointOf width n = q := by
  constructor
  · intro h
    obtain ⟨⟨v, n⟩, hmem, hpoint⟩ := List.mem_map.1 h
    obtain ⟨hindex, hvalue⟩ := List.mem_filter.1 hmem
    obtain rfl : v = value := eq_of_beq hvalue
    exact ⟨n, List.mem_zipIdx_iff_getElem?.1 hindex, hpoint⟩
  · rintro ⟨n, hn, hpoint⟩
    refine List.mem_map.2 ⟨(value, n), List.mem_filter.2 ⟨?_, beq_self_eq_true value⟩, hpoint⟩
    exact List.mem_zipIdx_iff_getElem?.2 hn

/-- A point of the grid has a value if its pixel has. -/
theorem mem_points_iff_getElem? {x : Nat} (hx : x < width) (y : Nat) :
    ((x : Int), -(y : Int)) ∈ points width pixels value ↔
      pixels[x + width * y]? = some value := by
  rw [mem_points_iff]
  constructor
  · rintro ⟨n, hn, hpoint⟩
    rw [← pointOf_add hx y] at hpoint
    rwa [← pointOf_injective width hpoint]
  · intro h
    exact ⟨x + width * y, h, pointOf_add hx y⟩

/-- All points lie on the grid. -/
theorem exists_of_mem_points (hlength : pixels.length = width * height) {q : Int × Int}
    (h : q ∈ points width pixels value) :
    ∃ x < width, ∃ y < height,
      pixels[x + width * y]? = some value ∧ q = ((x : Int), -(y : Int)) := by
  obtain ⟨n, hn, rfl⟩ := mem_points_iff.1 h
  have hlt : n < width * height := hlength ▸ (List.getElem?_eq_some_iff.1 hn).1
  have hwidth : 0 < width := Nat.pos_of_lt_mul_right hlt
  refine ⟨n % width, Nat.mod_lt n hwidth, n / width, Nat.div_lt_of_lt_mul hlt, ?_, rfl⟩
  rwa [Nat.mod_add_div]

/-- In a picture of two values the dark and the lit points are those of all pixels. -/
theorem points_perm (hbinary : ∀ v ∈ pixels, v = 0 ∨ v = 1) :
    (points width pixels 0 ++ points width pixels 1).Perm
      ((List.range pixels.length).map (pointOf width)) := by
  -- without a third value the second filter keeps what the first one drops
  have hlit : (pixels.zipIdx.filter fun p => p.1 == 1) =
      pixels.zipIdx.filter fun p => !(p.1 == 0) := by
    refine List.filter_congr fun p hp => ?_
    rcases hbinary p.1 (List.fst_mem_of_mem_zipIdx hp) with hv | hv
    · rw [hv]
      rfl
    · rw [hv]
      rfl
  have hnumbers : (pixels.zipIdx.map fun p => pointOf width p.2) =
      (List.range pixels.length).map (pointOf width) := by
    rw [List.range_eq_range', ← List.zipIdx_map_snd 0 pixels, List.map_map]
    rfl
  rw [← hnumbers, points, points, ← List.map_append, hlit]
  exact (List.filter_append_perm _ _).map _

/-- Each point of the grid is there once. -/
theorem count_points (hlength : pixels.length = width * height)
    (hbinary : ∀ v ∈ pixels, v = 0 ∨ v = 1) {x y : Nat} (hx : x < width) (hy : y < height) :
    (points width pixels 0 ++ points width pixels 1).count ((x : Int), -(y : Int)) = 1 := by
  rw [(points_perm hbinary).count_eq, hlength]
  refine List.count_eq_one_of_mem (List.nodup_range.map (pointOf_injective width)) ?_
  exact List.mem_map.2 ⟨x + width * y, List.mem_range.2 (number_lt hx hy), pointOf_add hx y⟩

/-! ### Dots in a box -/

/-- A dot of a colour. -/
def dot (colour : Colour) : Cell :=
  ⟨'▄', colour, .default⟩

/-- The dots of one colour are on their spots, and all other cells are as before. -/
theorem getElem?_drawDots (colour : Colour) (spots : List Nat) (cells : Array Cell) (n : Nat) :
    (drawDots colour spots cells)[n]? =
      if n ∈ spots then cells[n]?.map fun _ => dot colour else cells[n]? := by
  induction spots generalizing cells with
  | nil => simp [drawDots]
  | cons spot spots ih =>
      have hcons : drawDots colour (spot :: spots) cells =
          drawDots colour spots (cells.setIfInBounds spot (dot colour)) := rfl
      rw [hcons, ih]
      by_cases hspot : spot = n
      · subst hspot
        -- a spot off the cells leaves them as they are, and there is no cell to have a dot
        by_cases hin : spot < cells.size
        · simp [hin]
        · simp [hin]
      · simp [Array.getElem?_setIfInBounds_ne hspot, List.mem_cons, Ne.symm hspot]

theorem size_drawDots (colour : Colour) (spots : List Nat) (cells : Array Cell) :
    (drawDots colour spots cells).size = cells.size := by
  induction spots generalizing cells with
  | nil => rfl
  | cons spot spots ih => exact (ih _).trans Array.size_setIfInBounds

theorem size_drawBox (canvas box : Extent) : (drawBox canvas box).size = canvas.cells :=
  Array.size_ofFn

/-- What is put together takes up the whole terminal. -/
theorem size_compose (width height : Nat) (canvas : Extent) (pixels : List UInt8) :
    (compose width height canvas pixels).size = canvas.cells := by
  unfold compose
  split
  · exact size_drawBox ..
  · rw [size_drawDots, size_drawDots, size_drawBox]

/-- The number of the cell, in rows of `cols` cells, for the pixel in column `x` and row `y`: in
either direction the border of the box comes first. -/
def cellOf (cols x y : Nat) : Nat :=
  x + 1 + cols * (y + 1)

theorem cellOf_inj {cols x y x' y' : Nat} (hx : x + 1 < cols) (hx' : x' + 1 < cols)
    (h : cellOf cols x y = cellOf cols x' y') : x = x' ∧ y = y' := by
  have hpoint := congrArg (pointOf cols) h
  rw [cellOf, cellOf, pointOf_add hx, pointOf_add hx'] at hpoint
  obtain ⟨hcolumn, hrow⟩ := Prod.mk.inj hpoint
  omega

/-- The cells on which the points of a value are shown. -/
def spots (width height : Nat) (canvas : Extent) (pixels : List UInt8) (value : UInt8) : List Nat :=
  (points width pixels value).filterMap (spot width height canvas (frame width height))

/-- A terminal has room for the box of a picture: all of the terminal is painted on, the box is not
larger, and the picture is more than a single row or column. -/
structure Fits (width height : Nat) (canvas : Extent) : Prop where
  wide : 1 < width
  high : 1 < height
  cols : width + 2 ≤ canvas.cols
  rows : height + 2 ≤ canvas.rows
  limit : canvas.cells ≤ Extent.cellLimit

namespace Fits

variable {canvas : Extent}

/-- The box has its full size. -/
theorem frame_eq (h : Fits width height canvas) :
    frame width height = ⟨width + 2, height + 2⟩ :=
  Extent.capped_of_le (Nat.le_trans (Nat.mul_le_mul h.cols h.rows) h.limit)

theorem cellOf_lt (h : Fits width height canvas) {x y : Nat} (hx : x < width) (hy : y < height) :
    cellOf canvas.cols x y < canvas.cells := by
  have hcols := h.cols
  have hrows := h.rows
  exact number_lt (by omega) (by omega)

/-- A point of the grid is shown in the cell for its pixel. -/
theorem spot_eq (h : Fits width height canvas) (x y : Nat) :
    spot width height canvas (frame width height) ((x : Int), -(y : Int)) =
      some (cellOf canvas.cols x y) := by
  have hwide := h.wide
  have hhigh := h.high
  have hinside : 2 < width + 2 ∧ 2 < height + 2 := by omega
  have hnumber : (x : Int) + 1 + ((y : Int) + 1) * (canvas.cols : Int) =
      (cellOf canvas.cols x y : Nat) := by
    rw [cellOf, Nat.mul_comm]
    rfl
  simp only [spot, h.frame_eq, Nat.add_sub_cancel, Int.neg_neg, spread_self (Nat.ne_of_gt hwide),
    spread_self (Nat.ne_of_gt hhigh), if_pos hinside, hnumber, Int.toNat_natCast]

/-- The spots of a value are the cells for the pixels that have it. -/
theorem mem_spots_iff (h : Fits width height canvas) (hlength : pixels.length = width * height)
    {n : Nat} :
    n ∈ spots width height canvas pixels value ↔
      ∃ x < width, ∃ y < height,
        pixels[x + width * y]? = some value ∧ cellOf canvas.cols x y = n := by
  rw [spots, List.mem_filterMap]
  constructor
  · rintro ⟨q, hq, hspot⟩
    obtain ⟨x, hx, y, hy, hvalue, rfl⟩ := exists_of_mem_points hlength hq
    rw [h.spot_eq] at hspot
    exact ⟨x, hx, y, hy, hvalue, Option.some.inj hspot⟩
  · rintro ⟨x, hx, y, hy, hvalue, rfl⟩
    exact ⟨_, (mem_points_iff_getElem? hx y).2 hvalue, h.spot_eq x y⟩

/-- No two pixels share a cell, so the cell for a pixel is a spot of a value if the pixel has it. -/
theorem cellOf_mem_spots_iff (h : Fits width height canvas)
    (hlength : pixels.length = width * height) {x y : Nat} (hx : x < width) (hy : y < height) :
    cellOf canvas.cols x y ∈ spots width height canvas pixels value ↔
      pixels[x + width * y]? = some value := by
  have hcols := h.cols
  rw [h.mem_spots_iff hlength]
  constructor
  · rintro ⟨x', hx', y', -, hvalue, hcell⟩
    obtain ⟨rfl, rfl⟩ := cellOf_inj (by omega) (by omega) hcell
    exact hvalue
  · intro hvalue
    exact ⟨x, hx, y, hy, hvalue, rfl⟩

theorem compose_eq (h : Fits width height canvas) (pixels : List UInt8) :
    compose width height canvas pixels =
      drawDots .white (spots width height canvas pixels 1)
        (drawDots .black (spots width height canvas pixels 0)
          (drawBox canvas (frame width height))) := by
  have hwide := h.wide
  have hhigh := h.high
  have hline : ¬(width = 1 ∨ height = 1) := by omega
  rw [compose, if_neg hline]
  rfl

/-- The cell for a pixel has a dot of its colour. -/
theorem compose_inside (h : Fits width height canvas) (hlength : pixels.length = width * height)
    (hbinary : ∀ v ∈ pixels, v = 0 ∨ v = 1) {x y : Nat} (hx : x < width) (hy : y < height) :
    (compose width height canvas pixels)[cellOf canvas.cols x y]? =
      pixels[x + width * y]?.map fun v => dot (if v = 1 then .white else .black) := by
  have hcell : cellOf canvas.cols x y < (drawBox canvas (frame width height)).size := by
    rw [size_drawBox]
    exact h.cellOf_lt hx hy
  have hindex : x + width * y < pixels.length := hlength ▸ number_lt hx hy
  rw [h.compose_eq, getElem?_drawDots, getElem?_drawDots]
  simp only [h.cellOf_mem_spots_iff hlength hx hy, List.getElem?_eq_getElem hindex,
    Array.getElem?_eq_getElem hcell]
  rcases hbinary _ (List.getElem_mem hindex) with hv | hv
  · rw [hv]
    rfl
  · rw [hv]
    rfl

/-- Elsewhere there is the box, or nothing. -/
theorem compose_outside (h : Fits width height canvas) (hlength : pixels.length = width * height)
    {n : Nat} (hn : ∀ x < width, ∀ y < height, n ≠ cellOf canvas.cols x y) :
    (compose width height canvas pixels)[n]? =
      (drawBox canvas ⟨width + 2, height + 2⟩)[n]? := by
  have hoff (value : UInt8) : n ∉ spots width height canvas pixels value := by
    rw [h.mem_spots_iff hlength]
    rintro ⟨x, hx, y, hy, -, hcell⟩
    exact hn x hx y hy hcell.symm
  rw [h.compose_eq, getElem?_drawDots, if_neg (hoff 1), getElem?_drawDots, if_neg (hoff 0),
    h.frame_eq]

end Fits

/-! ### The terminal -/

/-- What a panel remembers is what its terminal shows. -/
structure InStep (p : Panel) : Prop where
  canvas : p.canvas = p.surface.extent.capped
  whole : p.surface.cells.size = p.surface.extent.cells
  agrees : ∀ {n k : Nat} {c a : Cell}, p.surface.within p.canvas.cols n = some k →
    p.surface.cells[n]? = some c → p.painted[k]? = some a → c = a

/-- A panel that has just taken a terminal over remembers a blank one. -/
theorem inStep_attach (width height : Nat) (surface : Surface) :
    (attach width height surface).InStep where
  canvas := rfl
  whole := Array.size_replicate
  agrees := by
    intro n k c a _ hc ha
    have hblank : c = .blank := Array.eq_of_mem_replicate (Array.mem_of_getElem? hc)
    have hblank' : a = .blank := Array.eq_of_mem_replicate (Array.mem_of_getElem? ha)
    rw [hblank, hblank']

/-- A cell of the terminal that is told of shows what it is to show, if it showed what was there. -/
theorem getElem?_update {s : Surface} {cols n k : Nat} {before after : Array Cell} {c a : Cell}
    (hk : s.within cols n = some k) (hc : s.cells[n]? = some c) (ha : after[k]? = some a)
    (hbefore : before[k]? = some a → c = a) :
    (s.update cols before after).cells[n]? = some a := by
  simp only [Surface.update, Array.getElem?_mapIdx, hc, hk, ha, Option.map_some]
  split
  · rw [hbefore ‹_›]
  · rfl

namespace InStep

variable {p p' : Panel}

theorem adapt_eq (h : p.InStep) : p.adapt = p :=
  if_pos h.canvas

theorem paint_eq (h : p.InStep) (pixels : List UInt8) :
    p.paint pixels =
      { p with
        surface := p.surface.update p.canvas.cols p.painted
          (compose p.width p.height p.canvas pixels)
        painted := compose p.width p.height p.canvas pixels } := by
  rw [paint, h.adapt_eq]

/-- A cell that is painted on shows what was put together for it: what is not written is there
already. -/
theorem getElem?_paint (h : p.InStep) {n k : Nat} {a : Cell}
    (hk : p.surface.within p.canvas.cols n = some k) (hn : n < p.surface.cells.size)
    (ha : (compose p.width p.height p.canvas pixels)[k]? = some a) :
    (p.paint pixels).surface.cells[n]? = some a := by
  have hc := Array.getElem?_eq_getElem hn
  rw [h.paint_eq]
  exact getElem?_update hk hc ha fun hbefore => h.agrees hk hc hbefore

theorem size_paint (h : p.InStep) (pixels : List UInt8) :
    (p.paint pixels).surface.cells.size = p.surface.cells.size := by
  rw [h.paint_eq]
  exact Array.size_mapIdx

/-- A panel that paints stays in step. -/
theorem paint (h : p.InStep) (pixels : List UInt8) : (p.paint pixels).InStep := by
  refine ⟨?_, ?_, ?_⟩
  · rw [h.paint_eq]
    exact h.canvas
  · rw [h.size_paint, h.whole, h.paint_eq]
    rfl
  · intro n k c a hk hc ha
    have hn := (Array.getElem?_eq_some_iff.1 hc).1
    rw [h.size_paint] at hn
    rw [h.paint_eq] at hk ha
    exact Option.some.inj (hc.symm.trans (h.getElem?_paint hk hn ha))

theorem render (h : p.InStep) (pixels : List UInt8) : (p.render pixels).2.InStep := by
  by_cases hlength : pixels.length = p.pixelCount
  · rw [render_of_eq hlength]
    exact h.paint pixels
  · obtain ⟨message, hrefused⟩ := render_of_ne hlength
    rw [hrefused]
    exact h

/-- A panel stays in step with its terminal, whatever it is asked for. -/
theorem of_reaches (h : p.InStep) (hreaches : DisplayReaches p p') : p'.InStep := by
  induction hreaches with
  | refl => exact h
  | clear _ ih => exact ih.paint _
  | render pixels _ ih => exact ih.render pixels

/-- Where the box has room, the terminal shows what was put together and nothing else. -/
theorem cells_paint (h : p.InStep) (hfits : Fits p.width p.height p.surface.extent)
    (pixels : List UInt8) :
    (p.paint pixels).surface.cells = compose p.width p.height p.surface.extent pixels := by
  have hcanvas : p.canvas = p.surface.extent := h.canvas.trans (Extent.capped_of_le hfits.limit)
  have hcols : 0 < p.surface.cols := Nat.lt_of_lt_of_le (Nat.succ_pos _) hfits.cols
  have hsize : (p.paint pixels).surface.cells.size = p.surface.extent.cells :=
    (h.size_paint pixels).trans h.whole
  refine Array.ext (hsize.trans (size_compose ..).symm) ?_
  intro n hn hn'
  -- all of the terminal is painted on, so a cell has one number on the canvas and on the terminal
  have hwithin : p.surface.within p.canvas.cols n = some n := by
    rw [hcanvas, Surface.within, Surface.extent, if_pos (Nat.mod_lt n hcols), Nat.mod_add_div']
  have hold : n < p.surface.cells.size := by
    rwa [← h.size_paint pixels]
  have hnew : (compose p.width p.height p.canvas pixels)[n]? =
      some (compose p.width p.height p.surface.extent pixels)[n] := by
    rw [hcanvas, Array.getElem?_eq_getElem hn']
  have hshown := h.getElem?_paint hwithin hold hnew
  rw [Array.getElem?_eq_getElem hn] at hshown
  exact Option.some.inj hshown

end InStep

/-- The terminal shows a picture: each pixel is a dot of its colour in a cell of its own, and the
other cells are those of a terminal with the empty box on it. -/
structure Shows (p : Panel) (pixels : List UInt8) : Prop where
  inside : ∀ x < p.width, ∀ y < p.height,
    p.surface.cells[cellOf p.surface.cols x y]? =
      pixels[x + p.width * y]?.map fun v => dot (if v = 1 then .white else .black)
  outside : ∀ n, (∀ x < p.width, ∀ y < p.height, n ≠ cellOf p.surface.cols x y) →
    p.surface.cells[n]? = (drawBox p.surface.extent ⟨p.width + 2, p.height + 2⟩)[n]?

theorem InStep.shows_paint {p : Panel} (h : p.InStep)
    (hfits : Fits p.width p.height p.surface.extent)
    (hlength : pixels.length = p.width * p.height) (hbinary : ∀ v ∈ pixels, v = 0 ∨ v = 1) :
    (p.paint pixels).Shows pixels := by
  have hcells := h.cells_paint hfits pixels
  rw [h.paint_eq] at hcells ⊢
  constructor
  · intro x hx y hy
    rw [hcells]
    exact hfits.compose_inside hlength hbinary hx hy
  · intro n hn
    rw [hcells]
    exact hfits.compose_outside hlength hn

/-! ### The whole picture -/

/-- **A picture shows on the terminal.**  If a panel took over a terminal that has room for the box,
the terminal shows a picture of the panel's size dot by dot once it is rendered, whatever the panel
was asked for before. -/
theorem picture_shown {p : Panel} {surface : Surface}
    (hreaches : DisplayReaches (attach p.width p.height surface) p)
    (hfits : Fits p.width p.height p.surface.extent)
    (hlength : pixels.length = p.width * p.height) (hbinary : ∀ v ∈ pixels, v = 0 ∨ v = 1) :
    (p.render pixels).2.Shows pixels := by
  have hstep : p.InStep := (inStep_attach ..).of_reaches hreaches
  rw [render_of_eq hlength]
  exact hstep.shows_paint hfits hlength hbinary

/-- A panel of four by two pixels on a small terminal, after a picture with all of the first row
lit. -/
def topRowLit : Panel :=
  (DisplayDevice.render (attach 4 2 (.new 10 6)) [1, 1, 1, 1, 0, 0, 0, 0]).2

/-- The next picture, with one lit pixel in either row. -/
def twoLit : List UInt8 :=
  [0, 1, 0, 0, 0, 0, 1, 0]

example :
    (topRowLit.render twoLit).2.surface.cells[23]? = some (dot .white) ∧
      (topRowLit.render twoLit).2.surface.cells[11]? = some (dot .black) := by
  decide +kernel

/-- **A picture covers the grid, each point once.**  Take any panel, and a picture of its size with
two values.  The points of the dark and of the lit pixels together are those of the grid, each of
them once, and a point is lit if and only if its pixel is.  The picture is accepted.  A picture of
any other size is refused before anything is painted: the panel stays as it is, and its terminal
too. -/
theorem picture_covers (p : Panel) :
    (∀ pixels : List UInt8, pixels.length = p.width * p.height → (∀ v ∈ pixels, v = 0 ∨ v = 1) →
      (∀ x < p.width, ∀ y < p.height,
        (points p.width pixels 0 ++ points p.width pixels 1).count ((x : Int), -(y : Int)) = 1 ∧
        (((x : Int), -(y : Int)) ∈ points p.width pixels 1 ↔
          pixels[x + p.width * y]? = some 1)) ∧
      (∀ q ∈ points p.width pixels 0 ++ points p.width pixels 1,
        ∃ x < p.width, ∃ y < p.height, q = ((x : Int), -(y : Int))) ∧
      p.render pixels = (.ok (), p.paint pixels)) ∧
    ∀ pixels : List UInt8, pixels.length ≠ p.width * p.height →
      ∃ message, p.render pixels = (.error (.invalidInput message), p) := by
  refine ⟨fun pixels hlength hbinary => ⟨?_, ?_, render_of_eq hlength⟩, fun _ => render_of_ne⟩
  · intro x hx y hy
    exact ⟨count_points hlength hbinary hx hy, mem_points_iff_getElem? hx y⟩
  · intro q hq
    have hgrid {value : UInt8} (h : q ∈ points p.width pixels value) :
        ∃ x < p.width, ∃ y < p.height, q = ((x : Int), -(y : Int)) := by
      obtain ⟨x, hx, y, hy, -, hpoint⟩ := exists_of_mem_points hlength h
      exact ⟨x, hx, y, hy, hpoint⟩
    exact (List.mem_append.1 hq).elim hgrid hgrid

theorem picture_covers_twoLit :
    twoLit.length = topRowLit.width * topRowLit.height ∧ (∀ v ∈ twoLit, v = 0 ∨ v = 1) ∧
      (points topRowLit.width twoLit 0 ++ points topRowLit.width twoLit 1).count (2, -1) = 1 ∧
      (2, -1) ∈ points topRowLit.width twoLit 1 ∧
      topRowLit.render twoLit = (.ok (), topRowLit.paint twoLit) ∧
      ∃ message, topRowLit.render [0, 1] = (.error (.invalidInput message), topRowLit) := by
  obtain ⟨haccepted, hrefused⟩ := picture_covers topRowLit
  have hlength : twoLit.length = topRowLit.width * topRowLit.height := rfl
  have hbinary : ∀ v ∈ twoLit, v = 0 ∨ v = 1 := by simp [twoLit]
  obtain ⟨hgrid, -, hrendered⟩ := haccepted twoLit hlength hbinary
  obtain ⟨honce, hlit⟩ := hgrid 2 (by decide) 1 (by decide)
  exact ⟨hlength, hbinary, honce, hlit.2 rfl, hrendered, hrefused [0, 1] (by decide)⟩

end Panel

end Chip8
