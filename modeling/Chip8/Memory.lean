/-
**Memory.**

The machine has 4096 bytes.  Addresses are 16-bit words, and the top four bits of an address play
no part: every access is brought back into memory, so a program cannot reach outside it.  The
glyphs of the sixteen digits are kept in memory, by default at its start; programs are loaded at
`0x200`.

Main definitions:

* `Chip8.Memory` — the cells, the place of programs and the place of the glyphs;
* `Chip8.Memory.cellOf` — the cell that an address names;
* `Chip8.Memory.read`, `Chip8.Memory.write`, `Chip8.Memory.word`, `Chip8.Memory.writeBytes`;
* `Chip8.Memory.reset` — zeros, and the glyphs at their place;
* `Chip8.Memory.load`, `Chip8.Memory.loadFrom` — put a program in place;
* `Chip8.Memory.glyphAddress` — where the picture of a digit begins.

Main result: `Chip8.Memory.writeBytes_addrs`, writing leaves the places of programs and glyphs
alone.
-/
import Chip8.ByteSource

set_option relaxedAutoImplicit false
set_option autoImplicit false

namespace Chip8

/-- The memory of the machine. -/
structure Memory where
  cells : Vector UInt8 4096
  programAddr : UInt16
  glyphAddr : UInt16
deriving DecidableEq

namespace Memory

/-- How many bytes there are. -/
def size (_ : Memory) : Nat :=
  4096

/-- The address at which programs begin. -/
def defaultProgramAddr : UInt16 :=
  0x200

/-- The address at which the glyphs begin. -/
def defaultGlyphAddr : UInt16 :=
  0

/-- The height of a glyph, one byte a row. -/
def glyphHeight : UInt16 :=
  5

/-- The glyphs of the digits `0` to `F`, five rows of four pixels each. -/
def font : List UInt8 :=
  [0xf0, 0x90, 0x90, 0x90, 0xf0,
   0x20, 0x60, 0x20, 0x20, 0x70,
   0xf0, 0x10, 0xf0, 0x80, 0xf0,
   0xf0, 0x10, 0xf0, 0x10, 0xf0,
   0x90, 0x90, 0xf0, 0x10, 0x10,
   0xf0, 0x80, 0xf0, 0x10, 0xf0,
   0xf0, 0x80, 0xf0, 0x90, 0xf0,
   0xf0, 0x10, 0x20, 0x40, 0x40,
   0xf0, 0x90, 0xf0, 0x90, 0xf0,
   0xf0, 0x90, 0xf0, 0x10, 0xf0,
   0xf0, 0x90, 0xf0, 0x90, 0x90,
   0xe0, 0x90, 0xe0, 0x90, 0xe0,
   0xf0, 0x80, 0x80, 0x80, 0xf0,
   0xe0, 0x90, 0x90, 0x90, 0xe0,
   0xf0, 0x80, 0xf0, 0x80, 0xf0,
   0xf0, 0x80, 0xf0, 0x80, 0x80]

/-! ### Access -/

/-- The cell that an address names. -/
def cellOf (addr : UInt16) : Fin 4096 :=
  ⟨addr.toNat % 4096, Nat.mod_lt _ (by decide)⟩

/-- The byte at an address. -/
def read (m : Memory) (addr : UInt16) : UInt8 :=
  m.cells[cellOf addr]

/-- Put a byte at an address. -/
def write (m : Memory) (addr : UInt16) (byte : UInt8) : Memory :=
  { m with cells := m.cells.set (cellOf addr) byte }

/-- The word at an address, high byte first; it may run across the top of memory. -/
def word (m : Memory) (addr : UInt16) : UInt16 :=
  ((m.read addr).toUInt16 <<< 8) ||| (m.read (addr + 1)).toUInt16

/-- Put bytes at consecutive addresses, first to last; later bytes overwrite earlier ones where
the data is longer than memory. -/
def writeBytes (m : Memory) (addr : UInt16) : List UInt8 → Memory
  | [] => m
  | b :: bs => writeBytes (m.write addr b) (addr + 1) bs

/-! ### Contents -/

/-- Zeros everywhere, then the glyphs. -/
def reset (m : Memory) : Memory :=
  writeBytes { m with cells := Vector.replicate 4096 0 } m.glyphAddr font

/-- A new memory, glyphs and programs at their usual places. -/
def new : Memory :=
  reset ⟨Vector.replicate 4096 0, defaultProgramAddr, defaultGlyphAddr⟩

/-- Put a program where programs go. -/
def load (m : Memory) (program : List UInt8) : Memory :=
  m.writeBytes m.programAddr program

/-- Put all bytes of a source at an address, and tell how many there were.  If the source fails,
nothing is written. -/
def writeFrom (m : Memory) (addr : UInt16) (source : ByteSource) :
    Except IoFailure Nat × Memory :=
  match source.readAll with
  | .ok bytes => (.ok bytes.length, m.writeBytes addr bytes)
  | .error failure => (.error failure, m)

/-- Put the program that a source holds where programs go. -/
def loadFrom (m : Memory) (source : ByteSource) : Except IoFailure Nat × Memory :=
  m.writeFrom m.programAddr source

/-- Where the glyph of the low nibble of `digit` begins. -/
def glyphAddress (m : Memory) (digit : UInt8) : UInt16 :=
  m.glyphAddr + (digit &&& 0x0f).toUInt16 * glyphHeight

/-! ### Bytes in a row -/

@[simp]
theorem writeBytes_cons (m : Memory) (a : UInt16) (b : UInt8) (bs : List UInt8) :
    m.writeBytes a (b :: bs) = (m.write a b).writeBytes (a + 1) bs := rfl

/-- Writing leaves the places of programs and glyphs alone. -/
theorem writeBytes_addrs (bs : List UInt8) (m : Memory) (a : UInt16) :
    (m.writeBytes a bs).programAddr = m.programAddr ∧
      (m.writeBytes a bs).glyphAddr = m.glyphAddr := by
  induction bs generalizing m a with
  | nil => exact ⟨rfl, rfl⟩
  | cons b bs ih => simpa [write] using ih (m.write a b) (a + 1)

end Memory

end Chip8
