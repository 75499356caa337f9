/-
**The table of glyphs.**

The pictures of the sixteen digits are kept in memory as one table, five bytes for each digit.  Two
parts of the machine have to agree on where a picture is.  A reset clears the memory and writes the
table byte after byte, going on at the start where memory ends; the address of a picture is computed
from the digit by a product and a sum.  The sum is not taken modulo anything, so the address of the
last picture has to be an address.  Apart from that the table can be anywhere: across the top of
memory, in a place with an alias, or so close to the end of the addresses that the last picture
itself runs past it.

Main results:

* `Chip8.Memory.cells_reset_of_mem`, `Chip8.Memory.cells_reset_of_ne` — the memory after a reset;
* `Chip8.Memory.toNat_glyphAddress` — the address of a picture, in numbers;
* `Chip8.Memory.read_glyph` — the bytes of a picture;
* `Chip8.Memory.reset_glyphs` — **the table is where the addresses say**.
-/
import Chip8.Proofs.Checked
import Chip8.Proofs.Writing

set_option relaxedAutoImplicit false
set_option autoImplicit false

namespace Chip8.Memory

theorem length_font : font.length = 80 := rfl

/-! ### The memory after a reset -/

/-- The table is no longer than the memory, so all of it is there. -/
theorem cells_reset_of_mem (m : Memory) {j : Nat} (hj : j < font.length) {cell : Fin 4096}
    (hcell : cellAfter m.glyphAddr j = cell) : font[j]? = some (m.reset.cells.get cell) := by
  have hlength : font.length ≤ 4096 := by
    rw [length_font]
    omega
  subst hcell
  rw [List.getElem?_eq_getElem hj]
  exact congrArg some (cells_writeBytes hlength _ m.glyphAddr hj).symm

/-- All other cells hold zero. -/
theorem cells_reset_of_ne (m : Memory) {cell : Fin 4096}
    (h : ∀ j < font.length, cellAfter m.glyphAddr j ≠ cell) : m.reset.cells.get cell = 0 := by
  have hcleared := cells_writeBytes_of_ne h { m with cells := Vector.replicate 4096 0 }
  refine hcleared.trans ?_
  simp

/-! ### The address of a picture -/

/-- The address of a picture does not wrap around, if that of the last one does not. -/
theorem toNat_glyphAddress {m : Memory} (h : m.glyphAddr.toNat + 75 ≤ 65535) (digit : UInt8) :
    (m.glyphAddress digit).toNat = m.glyphAddr.toNat + 5 * (digit.toNat % 16) := by
  have hnibble : (digit &&& 0x0f).toUInt16.toNat = digit.toNat % 16 := by
    have hmask : digit.toNat &&& 0x0f = digit.toNat % 2 ^ 4 := Nat.and_two_pow_sub_one_eq_mod _ 4
    simpa using hmask
  have hheight : glyphHeight.toNat = 5 := rfl
  rw [glyphAddress, UInt16.toNat_add, UInt16.toNat_mul, hnibble, hheight]
  omega

/-- The bytes of a picture follow its address, which is where the table has them. -/
theorem read_glyph {m : Memory} (h : m.glyphAddr.toNat + 75 ≤ 65535) (digit : UInt8) {k : Nat}
    (hk : k < 5) :
    font[5 * (digit.toNat % 16) + k]? =
      some (m.reset.read (m.reset.glyphAddress digit + UInt16.ofNat k)) := by
  have hplace : m.reset.glyphAddr = m.glyphAddr := m.reset_addrs.2
  have haddr : (m.reset.glyphAddress digit).toNat = m.glyphAddr.toNat + 5 * (digit.toNat % 16) := by
    rw [← hplace] at h ⊢
    exact toNat_glyphAddress h digit
  have hinside : 5 * (digit.toNat % 16) + k < font.length := by
    rw [length_font]
    omega
  rw [read_add]
  refine m.cells_reset_of_mem hinside (Fin.ext ?_)
  simp only [cellAfter, haddr]
  omega

/-- **The table is where the addresses say.**  Take any memory, and any place for the table such
that the address of the last picture is an address.  After a reset the table is in the cells from
its place on, across the top of memory if need be, and all other cells hold zero.  The address of a
picture is computed without leaving the range of an address, and the five bytes from there on, the
end of the addresses being followed by their start, are the picture of the low nibble of the
digit. -/
theorem reset_glyphs {m : Memory} (hplace : m.glyphAddr.toNat + 75 ≤ 65535) :
    (∀ cell : Fin 4096,
      (∀ j < 80, cell.val = (m.glyphAddr.toNat + j) % 4096 →
        font[j]? = some (m.reset.cells.get cell)) ∧
      ((∀ j < 80, cell.val ≠ (m.glyphAddr.toNat + j) % 4096) → m.reset.cells.get cell = 0)) ∧
    ∀ digit : UInt8,
      m.reset.glyphAddress? digit = some (m.reset.glyphAddress digit) ∧
        ∀ k < 5, font[5 * (digit.toNat % 16) + k]? =
          some (m.reset.read (m.reset.glyphAddress digit + UInt16.ofNat k)) := by
  refine ⟨fun cell => ⟨?_, ?_⟩, fun digit => ⟨?_, ?_⟩⟩
  · intro j hj hcell
    exact m.cells_reset_of_mem hj (Fin.ext hcell.symm)
  · intro hoff
    refine m.cells_reset_of_ne ?_
    intro j hj hcell
    exact hoff j hj (congrArg Fin.val hcell).symm
  · refine glyphAddress?_eq ?_ digit
    rw [m.reset_addrs.2]
    exact hplace
  · intro k hk
    exact read_glyph hplace digit hk

/-- A memory with its table at the last place there is, where the last picture begins at the last
address. -/
def lastPlace : Memory :=
  { new with glyphAddr := 0xffb4 }

/-- The second row of the last picture is at the first address. -/
theorem reset_glyphs_lastPlace :
    lastPlace.glyphAddr.toNat + 75 ≤ 65535 ∧ lastPlace.reset.glyphAddress 0xff = 0xffff ∧
      lastPlace.reset.read (lastPlace.reset.glyphAddress 0xff + 1) = 0x80 ∧
      lastPlace.reset.cells.get 0 = 0x80 ∧ lastPlace.reset.cells.get 0x200 = 0 := by
  have hplace : lastPlace.glyphAddr.toNat + 75 ≤ 65535 := by decide
  obtain ⟨hcells, hdigits⟩ := reset_glyphs hplace
  have hrow := (hdigits 0xff).2 1 (by decide)
  have hfirst := (hcells 0).1 76 (by decide) rfl
  have hlast : (lastPlace.reset.glyphAddress 0xff).toNat = 0xffff := by
    have hkept : lastPlace.reset.glyphAddr = 0xffb4 := lastPlace.reset_addrs.2
    rw [toNat_glyphAddress (by rw [hkept]; decide), hkept]
    rfl
  refine ⟨hplace, UInt16.toNat_inj.1 hlast, (Option.some.inj hrow).symm,
    (Option.some.inj hfirst).symm, (hcells 0x200).2 ?_⟩
  decide

end Chip8.Memory
