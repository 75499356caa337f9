/-
**Sprites.**

A sprite is eight columns wide and at most fifteen rows high, and two registers give its place, so
it may begin as far out as column and row 255.  A coordinate comes back on the screen once at most,
and what still lies outside spills into other rows.  For all that, no two points of one sprite ever
meet in a cell: columns that differ by less than 64 stay apart modulo 64, and rows that differ by
less than 32 stay apart modulo 32.

So drawing is an exclusive or with a mask, although the cells are flipped one after another, and the
flag tells whether the mask meets the picture as it was before, although it is gathered on the way.

Main definitions:

* `Chip8.Screen.hits` — how many points of a list name a cell;
* `Chip8.Cpu.sprite` — the points that an instruction draws;
* `Chip8.Cpu.spriteCell`, `Chip8.Cpu.spriteBit` — the cell and the bit of a position in a sprite;
* `Chip8.Cpu.Covers` — a cell is under a set bit.

Main results:

* `Chip8.Screen.lit_flipEach` — points flip a cell if an odd number of them hit it;
* `Chip8.Screen.erased_flipEach` — points in different cells report the picture before them all;
* `Chip8.Screen.cellAt_injective` — positions closer than a screen have different cells;
* `Chip8.Cpu.step_draw` — **drawing is an exclusive or with a mask**.
-/
import Chip8.Proofs.Step
import Mathlib.Data.Nat.Bitwise

set_option relaxedAutoImplicit false
set_option autoImplicit false

namespace Chip8

namespace Screen

/-! ### Flipping many points -/

/-- How many points of a list name a cell. -/
def hits (points : List (Int × Int)) (cell : Fin 2048) : Nat :=
  points.countP fun p => cellAt p.1 p.2 == cell

@[simp] theorem hits_nil (cell : Fin 2048) : hits [] cell = 0 := rfl

theorem hits_cons (p : Int × Int) (points : List (Int × Int)) (cell : Fin 2048) :
    hits (p :: points) cell = hits points cell + if cellAt p.1 p.2 = cell then 1 else 0 := by
  simp [hits, List.countP_cons]

/-- A list of points flips the cells that an odd number of them hit. -/
theorem lit_flipEach (s : Screen) (points : List (Int × Int)) (cell : Fin 2048) :
    (s.flipEach points).2.cells.get cell =
      (s.cells.get cell ^^ hits points cell % 2 == 1) := by
  induction points generalizing s with
  | nil => simp
  | cons p points ih =>
      have hflip : (s.flip p.1 p.2).2.cells.get cell =
          (s.cells.get cell ^^ decide (cellAt p.1 p.2 = cell)) := s.lit_flip p.1 p.2 cell
      rw [flipEach_cons, ih, hflip, hits_cons, Bool.xor_assoc]
      congr 1
      by_cases h : cellAt p.1 p.2 = cell
      · rcases Nat.mod_two_eq_zero_or_one (hits points cell) with h0 | h1
        · simp [h, h0, Nat.add_mod]
        · simp [h, h1, Nat.add_mod]
      · simp [h]

/-- Points in different cells report of each cell whether it was lit before all of them. -/
theorem erased_flipEach (s : Screen) {points : List (Int × Int)}
    (hdistinct : points.Pairwise fun p q => cellAt p.1 p.2 ≠ cellAt q.1 q.2) :
    (s.flipEach points).1 = points.map fun p => s.cells[cellAt p.1 p.2] := by
  induction points generalizing s with
  | nil => rfl
  | cons p points ih =>
      obtain ⟨hp, hrest⟩ := List.pairwise_cons.1 hdistinct
      have htail : ((s.flip p.1 p.2).2.flipEach points).1 =
          points.map fun q => s.cells[cellAt q.1 q.2] := by
        rw [ih _ hrest]
        refine List.map_congr_left ?_
        intro q hq
        rw [lit_flip]
        simp [hp q hq]
      rw [flipEach_cons, htail]
      rfl

/-- Among points in different cells no cell is hit twice. -/
theorem hits_le_one {points : List (Int × Int)}
    (hdistinct : points.Pairwise fun p q => cellAt p.1 p.2 ≠ cellAt q.1 q.2) (cell : Fin 2048) :
    hits points cell ≤ 1 := by
  induction points with
  | nil => exact Nat.zero_le 1
  | cons p points ih =>
      obtain ⟨hp, hrest⟩ := List.pairwise_cons.1 hdistinct
      rw [hits_cons]
      by_cases h : cellAt p.1 p.2 = cell
      · have hzero : hits points cell = 0 := by
          rw [hits, List.countP_eq_zero]
          intro q hq
          simpa [h] using (hp q hq).symm
        simp [h, hzero]
      · simpa [h] using ih hrest

/-- A cell is hit if a point names it. -/
theorem hits_pos_iff {points : List (Int × Int)} {cell : Fin 2048} :
    0 < hits points cell ↔ ∃ p ∈ points, cellAt p.1 p.2 = cell := by
  simp [hits, List.countP_pos_iff]

/-! ### Positions that stay apart -/

/-- Bringing a coordinate back does not change it modulo the size of its axis. -/
theorem wrapOnce_emod (size n : Int) : wrapOnce size n % size = n % size := by
  unfold wrapOnce
  split
  · exact Int.sub_emod_right n size
  · split
    · exact Int.add_emod_right n size
    · rfl

/-- Positions of one block less than 64 columns wide and 32 rows high have different cells, wherever
the block begins. -/
theorem cellAt_injective {left top : Int} {row col row' col' : Nat} (hrow : row < 32)
    (hcol : col < 64) (hrow' : row' < 32) (hcol' : col' < 64)
    (h : cellAt (left + col) (top + row) = cellAt (left + col') (top + row')) :
    row = row' ∧ col = col' := by
  have hval : ((wrapOnce 64 (left + col) + 64 * wrapOnce 32 (top + row)) % 2048).toNat =
      ((wrapOnce 64 (left + col') + 64 * wrapOnce 32 (top + row')) % 2048).toNat :=
    congrArg Fin.val h
  have hx := wrapOnce_emod 64 (left + col)
  have hx' := wrapOnce_emod 64 (left + col')
  have hy := wrapOnce_emod 32 (top + row)
  have hy' := wrapOnce_emod 32 (top + row')
  -- columns first: a cell number modulo 64 forgets the row
  obtain rfl : col = col' := by omega
  refine ⟨?_, rfl⟩
  omega

end Screen

namespace Memory

/-- The cell `n` places behind an address, across the top of memory if need be. -/
def cellAfter (addr : UInt16) (n : Nat) : Fin 4096 :=
  ⟨(addr.toNat + n) % 4096, Nat.mod_lt _ (by decide)⟩

theorem cellOf_add (addr : UInt16) (n : Nat) :
    cellOf (addr + UInt16.ofNat n) = cellAfter addr n := by
  refine Fin.ext ?_
  simp only [cellOf, cellAfter, UInt16.toNat_add, UInt16.toNat_ofNat']
  omega

theorem read_add (m : Memory) (addr : UInt16) (n : Nat) :
    m.read (addr + UInt16.ofNat n) = m.cells[cellAfter addr n] := by
  simp only [read, cellOf_add]

end Memory

namespace Cpu

/-! ### The points of a sprite -/

/-- The cell of a position in a sprite that begins in column `left` and row `top`. -/
def spriteCell (left top row col : Nat) : Fin 2048 :=
  Screen.cellAt (left + col) (top + row)

/-- The bit of a position in the sprite at the index register: row after row, the highest bit on the
left. -/
def spriteBit (c : Cpu) (row col : Nat) : Bool :=
  c.memory.cells[Memory.cellAfter c.registers.i row] &&& (0x80 >>> UInt8.ofNat col) != 0

/-- A cell lies under a set bit of the sprite of the given height at the place that `Vx` and `Vy`
give. -/
def Covers (c : Cpu) (x y height : Nat) (cell : Fin 2048) : Prop :=
  ∃ row < height, ∃ col < 8,
    spriteCell (c.registers.get x).toNat (c.registers.get y).toNat row col = cell ∧
      c.spriteBit row col = true

/-- A mask of one bit tests that bit. -/
theorem and_shiftRight_ne_zero (byte : UInt8) {col : Nat} (hcol : col < 8) :
    (byte &&& (0x80 >>> UInt8.ofNat col) != 0) = byte.toNat.testBit (7 - col) := by
  have hmask : (0x80 >>> UInt8.ofNat col : UInt8).toNat = 2 ^ (7 - col) := by
    rcases col with _ | _ | _ | _ | _ | _ | _ | _ | col
    all_goals first
      | rfl
      | omega
  have hzero : (byte &&& (0x80 >>> UInt8.ofNat col) = 0) ↔
      byte.toNat.testBit (7 - col) = false := by
    rw [← UInt8.toNat_inj, UInt8.toNat_and, hmask, Nat.and_two_pow]
    cases byte.toNat.testBit (7 - col) <;> simp
  cases h : byte.toNat.testBit (7 - col) with
  | false => simpa using hzero.2 h
  | true =>
      have hne : byte &&& (0x80 >>> UInt8.ofNat col) ≠ 0 := by
        intro h0
        simp [hzero.1 h0] at h
      simpa using hne

theorem mem_litColumns {byte : UInt8} {col : Nat} :
    col ∈ litColumns byte ↔ col < 8 ∧ byte.toNat.testBit (7 - col) = true := by
  simp [litColumns]

/-- The points that `DXYN` draws: the sprite at the index register, at the place that `Vx` and `Vy`
give. -/
def sprite (c : Cpu) (x y height : Nat) : List (Int × Int) :=
  spritePoints c.memory c.registers.i (c.registers.get x).toNat (c.registers.get y).toNat height

/-- The points of a sprite are the positions of its set bits. -/
theorem mem_sprite {c : Cpu} {x y height : Nat} {p : Int × Int} :
    p ∈ c.sprite x y height ↔
      ∃ row : Nat, row < height ∧ ∃ col : Nat, col < 8 ∧
        (((c.registers.get x).toNat + (col : Int), (c.registers.get y).toNat + (row : Int)) = p) ∧
          c.spriteBit row col = true := by
  simp only [sprite, spritePoints, List.mem_flatMap, List.mem_map, List.mem_range, mem_litColumns,
    Memory.read_add, spriteBit]
  constructor
  · rintro ⟨row, hrow, col, ⟨hcol, hbit⟩, rfl⟩
    exact ⟨row, hrow, col, hcol, rfl, by rwa [and_shiftRight_ne_zero _ hcol]⟩
  · rintro ⟨row, hrow, col, hcol, rfl, hbit⟩
    exact ⟨row, hrow, col, ⟨hcol, by rwa [and_shiftRight_ne_zero _ hcol] at hbit⟩, rfl⟩

/-- No two points of a sprite meet in a cell. -/
theorem pairwise_sprite (c : Cpu) (x y : Nat) {height : Nat} (hheight : height < 32) :
    (c.sprite x y height).Pairwise fun p q =>
      Screen.cellAt p.1 p.2 ≠ Screen.cellAt q.1 q.2 := by
  rw [sprite, spritePoints, List.pairwise_flatMap]
  constructor
  · -- two columns of one row
    intro row hrow
    rw [List.pairwise_map]
    have hrow' := List.mem_range.1 hrow
    have hsorted : (litColumns (c.memory.read (c.registers.i + UInt16.ofNat row))).Pairwise
        (· < ·) := List.pairwise_lt_range.sublist List.filter_sublist
    refine hsorted.imp_of_mem ?_
    intro col col' hcol hcol' hlt hcell
    obtain ⟨hcol, -⟩ := mem_litColumns.1 hcol
    obtain ⟨hcol', -⟩ := mem_litColumns.1 hcol'
    obtain ⟨-, hsame⟩ := Screen.cellAt_injective (by omega) (by omega) (by omega) (by omega) hcell
    omega
  · -- two rows
    refine List.pairwise_lt_range.imp_of_mem ?_
    intro row row' hrow hrow' hlt p hp q hq hcell
    have hrow := List.mem_range.1 hrow
    have hrow' := List.mem_range.1 hrow'
    obtain ⟨col, hcol, rfl⟩ := List.mem_map.1 hp
    obtain ⟨col', hcol', rfl⟩ := List.mem_map.1 hq
    obtain ⟨hcol, -⟩ := mem_litColumns.1 hcol
    obtain ⟨hcol', -⟩ := mem_litColumns.1 hcol'
    obtain ⟨hsame, -⟩ := Screen.cellAt_injective (by omega) (by omega) (by omega) (by omega) hcell
    omega

/-! ### Drawing -/

/-- The cells that the points of a sprite hit are those under its set bits. -/
theorem hits_sprite_pos_iff {c : Cpu} {x y height : Nat} {cell : Fin 2048} :
    0 < Screen.hits (c.sprite x y height) cell ↔ c.Covers x y height cell := by
  rw [Screen.hits_pos_iff]
  constructor
  · rintro ⟨p, hp, hcell⟩
    obtain ⟨row, hrow, col, hcol, rfl, hbit⟩ := mem_sprite.1 hp
    exact ⟨row, hrow, col, hcol, hcell, hbit⟩
  · rintro ⟨row, hrow, col, hcol, hcell, hbit⟩
    exact ⟨_, mem_sprite.2 ⟨row, hrow, col, hcol, rfl, hbit⟩, hcell⟩

/-- Drawing inverts the cells under the set bits. -/
theorem screen_draw (c : Cpu) (x y : Nat) {height : Nat} (hheight : height < 32)
    (cell : Fin 2048) :
    (c.Covers x y height cell →
        (c.draw x y height).screen.cells[cell] = !c.screen.cells[cell]) ∧
      (¬ c.Covers x y height cell →
        (c.draw x y height).screen.cells[cell] = c.screen.cells[cell]) := by
  have hscreen : (c.draw x y height).screen.cells[cell] =
      (c.screen.cells[cell] ^^ Screen.hits (c.sprite x y height) cell % 2 == 1) :=
    Screen.lit_flipEach _ _ cell
  -- no cell is hit twice, so the parity of the hits is their number
  have hle := Screen.hits_le_one (c.pairwise_sprite x y hheight) cell
  rw [← hits_sprite_pos_iff, hscreen]
  constructor
  · intro hpos
    have hone : Screen.hits (c.sprite x y height) cell = 1 := by omega
    simp [hone]
  · intro hpos
    have hzero : Screen.hits (c.sprite x y height) cell = 0 := by omega
    simp [hzero]

/-- The flag of a drawing is set if a cell under a set bit was lit before it. -/
theorem flag_draw (c : Cpu) (x y : Nat) {height : Nat} (hheight : height < 32) :
    ∃ on : Bool, (c.draw x y height).registers = c.registers.setFlag on ∧
      (on = true ↔ ∃ cell, c.Covers x y height cell ∧ c.screen.cells[cell] = true) := by
  refine ⟨(c.screen.flipEach (c.sprite x y height)).1.any id, rfl, ?_⟩
  -- as the points stay apart, each of them sees its cell as it was before the drawing
  rw [Screen.erased_flipEach c.screen (c.pairwise_sprite x y hheight)]
  simp only [List.any_map, List.any_eq_true, Function.comp_apply, id]
  constructor
  · rintro ⟨p, hp, hlit⟩
    exact ⟨_, hits_sprite_pos_iff.1 (Screen.hits_pos_iff.2 ⟨p, hp, rfl⟩), hlit⟩
  · rintro ⟨cell, hcovers, hlit⟩
    obtain ⟨p, hp, rfl⟩ := Screen.hits_pos_iff.1 (hits_sprite_pos_iff.2 hcovers)
    exact ⟨p, hp, hlit⟩

theorem decode_eq_draw {word : UInt16} {x y height : Nat} (hx : x < 16) (hy : y < 16)
    (hheight : height < 16) (hword : word.toNat = 0xd000 + 0x100 * x + 0x10 * y + height) :
    Instruction.decode word = .draw x y height := by
  have hfamily : word.toNat / 0x1000 = 0xd := by omega
  have h1 : word.toNat / 0x100 % 0x10 = x := by omega
  have h2 : word.toNat / 0x10 % 0x10 = y := by omega
  have h3 : word.toNat % 0x10 = height := by omega
  simp [Instruction.decode, hfamily, h1, h2, h3]

/-- **Drawing is an exclusive or with a mask.**  The positions of a sprite have different cells,
wherever it begins.  So executing `DXYN` inverts the cells under its set bits and no others, and the
flag is one if such a cell was lit before and else zero.  It remembers that something was drawn, and
but for the program counter it changes nothing else. -/
theorem step_draw {c : Cpu} {x y height : Nat} (hx : x < 16) (hy : y < 16) (hheight : height < 16)
    (hword : c.currentWord.toNat = 0xd000 + 0x100 * x + 0x10 * y + height) :
    (∀ row row' col col' : Nat, row < height → row' < height → col < 8 → col' < 8 →
        spriteCell (c.registers.get x).toNat (c.registers.get y).toNat row col =
          spriteCell (c.registers.get x).toNat (c.registers.get y).toNat row' col' →
        row = row' ∧ col = col') ∧
      c.step.outcome = .ok .next ∧
      (∀ cell : Fin 2048,
        (c.Covers x y height cell → c.step.cpu.screen.cells[cell] = !c.screen.cells[cell]) ∧
        (¬ c.Covers x y height cell → c.step.cpu.screen.cells[cell] = c.screen.cells[cell])) ∧
      (c.step.cpu.registers.flag = 1 ↔
        ∃ cell, c.Covers x y height cell ∧ c.screen.cells[cell] = true) ∧
      (c.step.cpu.registers.flag = 0 ↔
        ¬ ∃ cell, c.Covers x y height cell ∧ c.screen.cells[cell] = true) ∧
      c.step.cpu =
        { c with
          registers :=
            { c.registers with
              v := c.registers.v.set 0xf c.step.cpu.registers.flag
              pc := c.registers.pc + 2 }
          screen := c.step.cpu.screen
          drawPending := true } := by
  have hdecode := decode_eq_draw hx hy hheight hword
  have hstep : c.step.cpu = { c with registers := c.registers.skip }.draw x y height := by
    rw [step_cpu, hdecode]
    rfl
  obtain ⟨on, hregisters, hon⟩ :=
    flag_draw { c with registers := c.registers.skip } x y (by omega : height < 32)
  have hflag : c.step.cpu.registers.flag = on.toUInt8 := by
    rw [hstep, hregisters]
    exact Registers.get_set_self _ (by decide) _
  refine ⟨?_, ?_, ?_, ?_, ?_, ?_⟩
  · intro row row' col col' hrow hrow' hcol hcol' hcell
    exact Screen.cellAt_injective (by omega) (by omega) (by omega) (by omega) hcell
  · rw [step_outcome, hdecode]
    rfl
  · intro cell
    rw [hstep]
    exact screen_draw { c with registers := c.registers.skip } x y (by omega) cell
  · rw [hflag]
    refine Iff.trans ?_ hon
    cases on <;> decide
  · rw [hflag]
    refine Iff.trans ?_ (not_congr hon)
    cases on <;> decide
  · rw [hflag, hstep]
    have hv : ({ c with registers := c.registers.skip }.draw x y height).registers =
        { c.registers with v := c.registers.v.set 0xf on.toUInt8, pc := c.registers.pc + 2 } := by
      rw [hregisters, Registers.setFlag, Registers.set_eq _ (by decide)]
      rfl
    rw [← hv]
    rfl

/-- A glyph drawn from the lower right corner of a coordinate's range, on a picture all lit. -/
def farSprite : Cpu :=
  { (new 0).load [0xdf, 0xf5] with
    registers := Registers.new.set 0xf 0xff
    screen := ⟨Vector.replicate 2048 true⟩ }

theorem step_draw_farSprite :
    farSprite.currentWord.toNat = 0xd000 + 0x100 * 0xf + 0x10 * 0xf + 5 ∧
      farSprite.step.cpu.registers.flag = 1 ∧ farSprite.step.cpu.drawPending = true := by
  have hword : farSprite.currentWord.toNat = 0xd000 + 0x100 * 0xf + 0x10 * 0xf + 5 := by
    decide +kernel
  obtain ⟨-, -, -, hflag, -, hrest⟩ :=
    @step_draw farSprite 0xf 0xf 5 (by decide) (by decide) (by decide) hword
  refine ⟨hword, hflag.2 ⟨spriteCell 0xff 0xff 0 0, ⟨0, by decide, 0, by decide, ?_, ?_⟩, ?_⟩, ?_⟩
  · decide +kernel
  · decide +kernel
  · decide +kernel
  · rw [hrest]

end Cpu

end Chip8
