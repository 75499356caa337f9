/-
**Bytes in a row.**

Bytes are put into memory one after another, from an address on, and where memory ends they go on at
its start.  So a cell is written once, or not at all, or several times if there are more bytes than
cells; and what it holds afterwards is the last byte that came its way, or else what it held before.

A program is written from `0x200` on.  If it is no longer than the memory from there to the end, it
leaves the cells before it alone, and every two of its bytes in a row are fetched as a word.

Main definition:

* `Chip8.Memory.writers` — the numbers of the bytes that come to a cell.

Main results:

* `Chip8.Memory.cells_write` — a write changes the cell that its address names and no other;
* `Chip8.Memory.writeBytes_eq_foldl` — the bytes are written in order, each to the address that its
  number tells;
* `Chip8.Memory.cells_writeBytes_of_ne` — a cell that no byte comes to stays as it is;
* `Chip8.Memory.cells_writeBytes_last` — **the last byte that comes to a cell stays there**;
* `Chip8.Memory.cells_writeBytes` — bytes that are no more than the cells are all there;
* `Chip8.Memory.word_load` — the words of a program;
* `Chip8.Memory.writeBytes_lastWriter` — **a cell holds the byte of the greatest number that comes to
  it**.
-/
import Chip8.Proofs.Sprite
import Mathlib.Data.Nat.SuccPred
import Mathlib.Order.SuccPred.Archimedean

set_option relaxedAutoImplicit false
set_option autoImplicit false

namespace Chip8.Memory

/-- The cells after the next address. -/
theorem cellAfter_succ (addr : UInt16) (n : Nat) :
    cellAfter (addr + 1) n = cellAfter addr (n + 1) := by
  have hone : (1 : UInt16).toNat = 1 := rfl
  refine Fin.ext ?_
  simp only [cellAfter, UInt16.toNat_add, hone]
  omega

/-- Addresses less than a whole memory apart have different cells. -/
theorem cellAfter_inj {addr : UInt16} {j k : Nat} (hj : j < 4096) (hk : k < 4096)
    (h : cellAfter addr j = cellAfter addr k) : j = k := by
  have hval : (addr.toNat + j) % 4096 = (addr.toNat + k) % 4096 := congrArg Fin.val h
  omega

/-- A write changes the cell that its address names and no other. -/
theorem cells_write (m : Memory) (addr : UInt16) (byte : UInt8) (cell : Fin 4096) :
    (m.write addr byte).cells[cell] = if cellOf addr = cell then byte else m.cells[cell] := by
  simp only [write, Fin.getElem_fin, Vector.getElem_set, Fin.ext_iff]

/-- A cell that no byte comes to stays as it is. -/
theorem cells_writeBytes_of_ne {bytes : List UInt8} {addr : UInt16} {cell : Fin 4096}
    (h : ∀ k < bytes.length, cellAfter addr k ≠ cell) (m : Memory) :
    (m.writeBytes addr bytes).cells[cell] = m.cells[cell] := by
  induction bytes generalizing m addr with
  | nil => rfl
  | cons b bs ih =>
      have hfirst : cellOf addr ≠ cell := h 0 (Nat.succ_pos _)
      have hrest : ∀ k < bs.length, cellAfter (addr + 1) k ≠ cell := by
        intro k hk
        rw [cellAfter_succ]
        exact h (k + 1) (Nat.succ_lt_succ hk)
      rw [writeBytes_cons, ih hrest, cells_write, if_neg hfirst]

/-- **The last byte that comes to a cell stays there.** -/
theorem cells_writeBytes_last {bytes : List UInt8} {addr : UInt16} {cell : Fin 4096} {k : Nat}
    (hk : k < bytes.length) (hcell : cellAfter addr k = cell)
    (hlast : ∀ j, k < j → j < bytes.length → cellAfter addr j ≠ cell) (m : Memory) :
    (m.writeBytes addr bytes).cells[cell] = bytes[k] := by
  induction bytes generalizing m addr k with
  | nil => exact absurd hk (Nat.not_lt_zero k)
  | cons b bs ih =>
      rw [writeBytes_cons]
      cases k with
      | zero =>
          -- nothing that follows comes to the cell of the first byte
          have hrest : ∀ j < bs.length, cellAfter (addr + 1) j ≠ cell := by
            intro j hj
            rw [cellAfter_succ]
            exact hlast (j + 1) (Nat.succ_pos j) (Nat.succ_lt_succ hj)
          have hfirst : cellOf addr = cell := hcell
          rw [cells_writeBytes_of_ne hrest, cells_write, if_pos hfirst]
          rfl
      | succ k =>
          refine ih (Nat.lt_of_succ_lt_succ hk) ?_ ?_ (m.write addr b)
          · rw [cellAfter_succ]
            exact hcell
          · intro j hkj hj
            rw [cellAfter_succ]
            exact hlast (j + 1) (Nat.succ_lt_succ hkj) (Nat.succ_lt_succ hj)

/-- Bytes that are no more than the cells are all there. -/
theorem cells_writeBytes {bytes : List UInt8} (hlength : bytes.length ≤ 4096) (m : Memory)
    (addr : UInt16) {k : Nat} (hk : k < bytes.length) :
    (m.writeBytes addr bytes).cells[cellAfter addr k] = bytes[k] := by
  refine cells_writeBytes_last hk rfl ?_ m
  intro j hkj hj hcell
  exact Nat.ne_of_gt hkj (cellAfter_inj (by omega) (by omega) hcell)

/-! ### The bytes by their numbers -/

theorem add_ofNat_succ (addr : UInt16) (n : Nat) :
    addr + UInt16.ofNat n + 1 = addr + UInt16.ofNat (n + 1) := by
  rw [UInt16.ofNat_add, UInt16.add_assoc]
  rfl

theorem writeBytes_eq_foldl_zipIdx (m : Memory) (addr : UInt16) (bytes : List UInt8) (n : Nat) :
    m.writeBytes (addr + UInt16.ofNat n) bytes =
      (bytes.zipIdx n).foldl (fun m p => m.write (addr + UInt16.ofNat p.2) p.1) m := by
  induction bytes generalizing m n with
  | nil => rfl
  | cons b bs ih =>
      rw [writeBytes_cons, add_ofNat_succ, ih, List.zipIdx_cons, List.foldl_cons]

/-- Byte number `k` is written `k` places behind the address, the number being taken as a word. -/
theorem writeBytes_eq_foldl (m : Memory) (addr : UInt16) (bytes : List UInt8) :
    m.writeBytes addr bytes =
      bytes.zipIdx.foldl (fun m p => m.write (addr + UInt16.ofNat p.2) p.1) m := by
  have hzero : addr + UInt16.ofNat 0 = addr := UInt16.add_zero addr
  have hloop := m.writeBytes_eq_foldl_zipIdx addr bytes 0
  rwa [hzero] at hloop

/-- The numbers of the bytes that come to a cell, if `n` bytes are written from an address on. -/
def writers (addr : UInt16) (n : Nat) (cell : Fin 4096) : Set Nat :=
  {k | k < n ∧ (addr.toNat + k) % 4096 = cell.val}

/-- A cell holds the byte of the greatest number that comes to it, or else what it held before. -/
theorem cells_writeBytes_cases (m : Memory) (addr : UInt16) (bytes : List UInt8)
    (cell : Fin 4096) :
    (∃ k, IsGreatest (writers addr bytes.length cell) k ∧
      bytes[k]? = some (m.writeBytes addr bytes).cells[cell]) ∨
    (writers addr bytes.length cell = ∅ ∧
      (m.writeBytes addr bytes).cells[cell] = m.cells[cell]) := by
  rcases Set.eq_empty_or_nonempty (writers addr bytes.length cell) with hnone | hsome
  · refine .inr ⟨hnone, cells_writeBytes_of_ne (fun k hk hcell => ?_) m⟩
    have hmem : k ∈ writers addr bytes.length cell := ⟨hk, congrArg Fin.val hcell⟩
    rw [hnone] at hmem
    exact hmem
  · have hbound : BddAbove (writers addr bytes.length cell) :=
      ⟨bytes.length, fun k hk => Nat.le_of_lt hk.1⟩
    obtain ⟨k, hgreatest⟩ := hbound.exists_isGreatest_of_nonempty hsome
    obtain ⟨hk, hcell⟩ := hgreatest.1
    have hlast : ∀ j, k < j → j < bytes.length → cellAfter addr j ≠ cell := by
      intro j hkj hj hcell'
      exact Nat.not_le_of_lt hkj (hgreatest.2 ⟨hj, congrArg Fin.val hcell'⟩)
    refine .inl ⟨k, hgreatest, ?_⟩
    rw [cells_writeBytes_last hk (Fin.ext hcell) hlast m, List.getElem?_eq_getElem hk]

/-! ### Programs -/

/-- A word in numbers, high byte first. -/
theorem toNat_word (m : Memory) (addr : UInt16) :
    (m.word addr).toNat = 256 * (m.read addr).toNat + (m.read (addr + 1)).toNat := by
  have hhigh : (m.read addr).toNat < 2 ^ 8 := (m.read addr).toNat_lt
  have hlow : (m.read (addr + 1)).toNat < 2 ^ 8 := (m.read (addr + 1)).toNat_lt
  have hshift : ((m.read addr).toUInt16 <<< 8).toNat = (m.read addr).toNat <<< 8 := by
    simp [Nat.shiftLeft_eq]
    omega
  rw [word, UInt16.toNat_or, hshift, UInt8.toNat_toUInt16, ← Nat.shiftLeft_add_eq_or_of_lt hlow,
    Nat.shiftLeft_eq]
  omega

/-- A program that ends with memory leaves the cells before it alone. -/
theorem cells_load_of_lt {m : Memory} (hplace : m.programAddr = defaultProgramAddr)
    {program : List UInt8} (hlength : program.length ≤ 3584) {cell : Fin 4096}
    (hcell : cell.val < 0x200) : (m.load program).cells[cell] = m.cells[cell] := by
  rw [load, hplace]
  refine cells_writeBytes_of_ne (fun k hk hcell' => ?_) m
  have hval : (0x200 + k) % 4096 = cell.val := congrArg Fin.val hcell'
  omega

/-- Two bytes of a program in a row are a word of it. -/
theorem word_load {m : Memory} (hplace : m.programAddr = defaultProgramAddr)
    {program : List UInt8} (hlength : program.length ≤ 4096) {j : Nat}
    (hj : j + 1 < program.length) :
    ((m.load program).word (UInt16.ofNat (0x200 + j))).toNat =
      256 * program[j].toNat + program[j + 1].toNat := by
  have haddr : UInt16.ofNat (0x200 + j) = defaultProgramAddr + UInt16.ofNat j :=
    UInt16.ofNat_add 0x200 j
  rw [load, hplace, haddr, toNat_word, add_ofNat_succ, read_add, read_add,
    cells_writeBytes hlength m defaultProgramAddr (Nat.lt_of_succ_lt hj),
    cells_writeBytes hlength m defaultProgramAddr hj]

/-- **A cell holds the byte of the greatest number that comes to it**, or else what it held before,
however many bytes are written and wherever they begin.  So a program at the usual place that is no
longer than the memory from there on leaves the cells before it alone, and its words are fetched as
they were given. -/
theorem writeBytes_lastWriter (m : Memory) (addr : UInt16) (bytes : List UInt8) :
    m.writeBytes addr bytes =
      bytes.zipIdx.foldl (fun m p => m.write (addr + UInt16.ofNat p.2) p.1) m ∧
    (∀ cell : Fin 4096,
      (∃ k, IsGreatest (writers addr bytes.length cell) k ∧
        bytes[k]? = some (m.writeBytes addr bytes).cells[cell]) ∨
      (writers addr bytes.length cell = ∅ ∧
        (m.writeBytes addr bytes).cells[cell] = m.cells[cell])) ∧
    (m.programAddr = defaultProgramAddr → bytes.length ≤ 3584 →
      (∀ cell : Fin 4096, cell.val < 0x200 → (m.load bytes).cells[cell] = m.cells[cell]) ∧
      ∀ (j : Nat) (hj : j + 1 < bytes.length),
        ((m.load bytes).word (UInt16.ofNat (0x200 + j))).toNat =
          256 * bytes[j].toNat + bytes[j + 1].toNat) := by
  refine ⟨m.writeBytes_eq_foldl addr bytes, m.cells_writeBytes_cases addr bytes, ?_⟩
  intro hplace hlength
  constructor
  · intro cell hcell
    exact cells_load_of_lt hplace hlength hcell
  · intro j hj
    exact word_load hplace (by omega) hj

theorem writeBytes_lastWriter_threeBytes :
    new.programAddr = defaultProgramAddr ∧
      ((new.load [0x12, 0x34, 0x56]).word 0x201).toNat = 256 * 0x34 + 0x56 ∧
      (new.load [0x12, 0x34, 0x56]).cells[(5 : Fin 4096)] = new.cells[(5 : Fin 4096)] := by
  have hplace : new.programAddr = defaultProgramAddr := (writeBytes_addrs _ _ _).1
  obtain ⟨-, -, hload⟩ := writeBytes_lastWriter new 0 [0x12, 0x34, 0x56]
  obtain ⟨hbefore, hwords⟩ := hload hplace (by decide)
  exact ⟨hplace, hwords 1 (by decide), hbefore 5 (by decide)⟩

end Chip8.Memory
