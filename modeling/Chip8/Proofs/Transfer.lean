/-
**From the registers to memory and back.**

Two instructions move the first registers to memory and back.  They do it in different ways: a store
writes a row of bytes that it has collected before, a load asks for one byte after another.  What
they agree on is where the bytes are, also where memory or the addresses end.  So a load undoes a
store, and a store undoes a load, and neither is seen afterwards but in memory, or in the registers.
A store may well overwrite the load that follows it; then it is the word that is fetched that counts.

A third instruction writes a register in decimal, one digit to a cell.

The bytes from an address on are what both directions are about.  Writing them where they were read
changes nothing, and reading them where they were written gives them back.

Main definition: `Chip8.Memory.bytesFrom`, so many bytes from an address on.

Main results:

* `Chip8.Memory.writeBytes_bytesFrom`, `Chip8.Memory.bytesFrom_writeBytes` — writing what was read,
  and reading what was written;
* `Chip8.Cpu.firstRegisters_fillRegisters`, `Chip8.Cpu.fillRegisters_eq_self` — the same of
  registers;
* `Chip8.Cpu.toNat_decimalDigits` — the digits of a byte;
* `Chip8.Cpu.transfers_undone` — **a transfer is undone by the one in the other direction**.
-/
import Chip8.Proofs.Footprint

set_option relaxedAutoImplicit false
set_option autoImplicit false

namespace Chip8

/-! ### Memory -/

namespace Memory

/-- So many bytes from an address on, across the top of memory if need be. -/
def bytesFrom (m : Memory) (addr : UInt16) (n : Nat) : List UInt8 :=
  (List.range n).map fun k => m.cells.get (cellAfter addr k)

@[simp] theorem length_bytesFrom (m : Memory) (addr : UInt16) (n : Nat) :
    (m.bytesFrom addr n).length = n := by
  simp [bytesFrom]

theorem bytesFrom_succ (m : Memory) (addr : UInt16) (n : Nat) :
    m.bytesFrom addr (n + 1) = m.read addr :: m.bytesFrom (addr + 1) n := by
  have hfirst : m.cells.get (cellAfter addr 0) = m.read addr := rfl
  simp [bytesFrom, List.range_succ_eq_map, Function.comp_def, cellAfter_succ, hfirst]

/-- Writing a byte where it is changes nothing. -/
theorem write_read (m : Memory) (addr : UInt16) : m.write addr (m.read addr) = m := by
  simp [write, read]

/-- **Writing bytes where they are changes nothing**, however many there are. -/
theorem writeBytes_bytesFrom (m : Memory) (addr : UInt16) (n : Nat) :
    m.writeBytes addr (m.bytesFrom addr n) = m := by
  induction n generalizing addr with
  | zero => rfl
  | succ n ih => rw [bytesFrom_succ, writeBytes_cons, write_read, ih]

/-- **Bytes are read where they were written**, if there is room for all of them. -/
theorem bytesFrom_writeBytes {bytes : List UInt8} (hlength : bytes.length ≤ 4096) (m : Memory)
    (addr : UInt16) : (m.writeBytes addr bytes).bytesFrom addr bytes.length = bytes := by
  refine List.ext_getElem (length_bytesFrom ..) ?_
  intro k _ hk
  simp only [bytesFrom, List.getElem_map, List.getElem_range]
  exact cells_writeBytes hlength m addr hk

end Memory

/-! ### Registers -/

namespace Registers

/-- Putting a byte where it is changes nothing. -/
theorem set_get (r : Registers) {x : Nat} (hx : x < 16) : r.set x (r.get x) = r := by
  rw [set_eq r hx]
  simp [get, Vector.getD, hx]

end Registers

namespace Cpu

/-- The registers that were filled hold the bytes from the index register on. -/
theorem firstRegisters_fillRegisters {x : Nat} (hx : x < 16) (m : Memory) (r : Registers) :
    firstRegisters (fillRegisters m r x) x = m.bytesFrom r.i (x + 1) := by
  have hfilled : ∀ n ≤ 16, ∀ y < n,
      ((List.range n).foldl (fun r' k => r'.set k (m.read (r.i + UInt16.ofNat k))) r).get y =
        m.cells.get (Memory.cellAfter r.i y) := by
    intro n
    induction n with
    | zero =>
        intro _ y hy
        exact absurd hy (Nat.not_lt_zero y)
    | succ n ih =>
        intro hn y hy
        rw [List.range_succ, List.foldl_append, List.foldl_cons, List.foldl_nil,
          Registers.get_set _ (by omega), Memory.read_add]
        split
        · rename_i hlast
          subst hlast
          rfl
        · exact ih (by omega) y (by omega)
  refine List.map_congr_left ?_
  intro y hy
  exact hfilled (x + 1) (by omega) y (List.mem_range.1 hy)

/-- Registers that hold the bytes from the index register on are not changed by filling them. -/
theorem fillRegisters_eq_self {m : Memory} {r : Registers} {x : Nat} (hx : x < 16)
    (h : m.bytesFrom r.i (x + 1) = firstRegisters r x) : fillRegisters m r x = r := by
  have hbytes : ∀ k < x + 1, m.read (r.i + UInt16.ofNat k) = r.get k := by
    intro k hk
    rw [Memory.read_add]
    exact List.map_inj_left.1 h k (List.mem_range.2 hk)
  -- the first so many of them are filled, and nothing has changed so far
  have hunchanged : ∀ n ≤ x + 1,
      (List.range n).foldl (fun r' k => r'.set k (m.read (r.i + UInt16.ofNat k))) r = r := by
    intro n
    induction n with
    | zero => exact fun _ => rfl
    | succ n ih =>
        intro hn
        rw [List.range_succ, List.foldl_append, ih (by omega), List.foldl_cons, List.foldl_nil,
          hbytes n (by omega), Registers.set_get r (by omega)]
  exact hunchanged (x + 1) (Nat.le_refl _)

/-! ### Decimal digits -/

/-- The digits of a byte are digits, and they make up its value. -/
theorem toNat_decimalDigits (n : UInt8) :
    ∃ d₀ d₁ d₂ : UInt8, decimalDigits n = [d₀, d₁, d₂] ∧ d₀ ≤ 9 ∧ d₁ ≤ 9 ∧ d₂ ≤ 9 ∧
      100 * d₀.toNat + 10 * d₁.toNat + d₂.toNat = n.toNat := by
  have hn : n.toNat < 256 := n.toNat_lt
  have h₀ : (n / 100).toNat = n.toNat / 100 := by simp
  have h₁ : (n / 10 % 10).toNat = n.toNat / 10 % 10 := by simp
  have h₂ : (n % 10).toNat = n.toNat % 10 := by simp
  have hnine : (9 : UInt8).toNat = 9 := rfl
  refine ⟨n / 100, n / 10 % 10, n % 10, rfl, ?_, ?_, ?_, ?_⟩
  · rw [UInt8.le_iff_toNat_le, h₀, hnine]
    omega
  · rw [UInt8.le_iff_toNat_le, h₁, hnine]
    omega
  · rw [UInt8.le_iff_toNat_le, h₂, hnine]
    omega
  · rw [h₀, h₁, h₂]
    omega

/-! ### Transfers -/

section

open Instruction (Encodes)

variable {c : Cpu} {x : Nat}

theorem step_of_load (h : Encodes c.currentWord (.load x)) :
    c.step.outcome = .ok .next ∧
      c.step.cpu = { c with registers := fillRegisters c.memory c.registers.skip x } := by
  rw [step_outcome, step_cpu, Instruction.decode_eq_iff.2 h]
  exact ⟨rfl, rfl⟩

/-- A transfer names a register that exists. -/
theorem lt_of_transfer {word : UInt16}
    (h : Encodes word (.store x) ∨ Encodes word (.load x)) : x < 16 := by
  obtain ⟨-, -, rfl⟩ | ⟨-, -, rfl⟩ := h <;> exact Nat.mod_lt _ (by decide)

/-- A load after a store into the same cells finds what the store has put there. -/
theorem after_store_load (hstore : Encodes c.currentWord (.store x))
    (hload : Encodes (c.after 1).currentWord (.load x)) :
    c.after 2 =
      { c with
        registers := { c.registers with pc := c.registers.pc + 4 }
        memory := (c.after 1).memory } := by
  have hx : x < 16 := lt_of_transfer (.inl hstore)
  have hlength : (firstRegisters c.registers x).length = x + 1 := by simp [firstRegisters]
  have hfirst : c.after 1 = _ := (step_of_store hstore).2
  -- moving on touches neither the byte registers nor the index register
  have hwritten : (c.memory.writeBytes c.registers.i (firstRegisters c.registers x)).bytesFrom
      c.registers.skip.skip.i (x + 1) = firstRegisters c.registers.skip.skip x := by
    rw [← hlength]
    exact Memory.bytesFrom_writeBytes (by omega) c.memory c.registers.i
  have hpc : c.registers.skip.skip = { c.registers with pc := c.registers.pc + 4 } := by
    simp [Registers.skip, UInt16.add_assoc]
  rw [after_succ, (step_of_load hload).2, hfirst, ← hpc]
  simp only [fillRegisters_eq_self hx hwritten]

/-- A store after a load from the same cells writes what is there. -/
theorem after_load_store (hload : Encodes c.currentWord (.load x))
    (hstore : Encodes (c.after 1).currentWord (.store x)) :
    c.after 2 = { c with registers := (c.after 1).registers.skip } := by
  have hx : x < 16 := lt_of_transfer (.inr hload)
  have hfirst : c.after 1 = _ := (step_of_load hload).2
  have hindex : (fillRegisters c.memory c.registers.skip x).i = c.registers.i := by
    rw [fillRegisters_eq]
    rfl
  have hread : firstRegisters (fillRegisters c.memory c.registers.skip x) x =
      c.memory.bytesFrom c.registers.i (x + 1) := firstRegisters_fillRegisters hx _ _
  rw [after_succ, (step_of_store hstore).2, hfirst]
  simp only [hindex, hread, Memory.writeBytes_bytesFrom]

/-- **A transfer is undone by the one in the other direction.**  Take any processor, its index
register holding any address, and any register as the last one to be moved.  If the words that are
fetched in two steps are a store and a load, then the registers are afterwards what they were before,
the program counter having moved on, and nothing else but memory has changed.  If they are a load and a
store, then memory is what it was before, and nothing but the registers has changed.  And a decimal
conversion writes three digits to the cells from the index register on, which make up the value of
the register.  All this holds also where the cells run across the top of memory or past the last
address. -/
theorem transfers_undone (c : Cpu) (x : Nat) :
    (Encodes c.currentWord (.store x) → Encodes (c.after 1).currentWord (.load x) →
      c.Proceeds ∧ (c.after 1).Proceeds ∧
        c.after 2 =
          { c with
            registers := { c.registers with pc := c.registers.pc + 4 }
            memory := (c.after 1).memory }) ∧
    (Encodes c.currentWord (.load x) → Encodes (c.after 1).currentWord (.store x) →
      c.Proceeds ∧ (c.after 1).Proceeds ∧
        c.after 2 = { c with registers := (c.after 1).registers.skip }) ∧
    (Encodes c.currentWord (.decimal x) →
      c.Proceeds ∧ ∃ d₀ d₁ d₂ : UInt8,
        (c.after 1).memory.bytesFrom c.registers.i 3 = [d₀, d₁, d₂] ∧
          d₀ ≤ 9 ∧ d₁ ≤ 9 ∧ d₂ ≤ 9 ∧
          100 * d₀.toNat + 10 * d₁.toNat + d₂.toNat = (c.registers.get x).toNat) := by
  refine ⟨?_, ?_, ?_⟩
  · intro hstore hload
    exact ⟨⟨_, (step_of_store hstore).1⟩, ⟨_, (step_of_load hload).1⟩,
      after_store_load hstore hload⟩
  · intro hload hstore
    exact ⟨⟨_, (step_of_load hload).1⟩, ⟨_, (step_of_store hstore).1⟩,
      after_load_store hload hstore⟩
  · intro hdecimal
    have hfirst : c.after 1 = _ := (step_of_decimal hdecimal).2
    obtain ⟨d₀, d₁, d₂, hdigits, hvalue⟩ := toNat_decimalDigits (c.registers.get x)
    refine ⟨⟨_, (step_of_decimal hdecimal).1⟩, d₀, d₁, d₂, ?_, hvalue⟩
    rw [hfirst, hdigits]
    exact Memory.bytesFrom_writeBytes (by simp) c.memory c.registers.i

/-- A processor about to store four registers from its next word on, the third and the fourth of
which are a load of these registers. -/
def storesItsLoad : Cpu :=
  { (new 0).load [0xf3, 0x55] with
    registers :=
      { Registers.new with
        v := #v[1, 2, 0xf3, 0x65, 0, 0, 0, 0, 0, 0, 0, 0, 0, 0, 0, 0]
        i := 0x200 } }

/-- A processor about to load from the last address on, and to store there. -/
def loadsPastTheEnd : Cpu :=
  { (new 0).load [0xf2, 0x65, 0xf2, 0x55] with registers := { Registers.new with i := 0xffff } }

/-- A processor about to convert a register into the last two cells of memory and the first one. -/
def convertsAcross : Cpu :=
  { (new 0).load [0xf5, 0x33] with registers := { Registers.new.set 5 254 with i := 0x0ffe } }

theorem transfers_undone_overlapping :
    (Encodes storesItsLoad.currentWord (.store 3) ∧
      Encodes (storesItsLoad.after 1).currentWord (.load 3) ∧
      (storesItsLoad.after 2).registers = { storesItsLoad.registers with pc := 0x204 }) ∧
    (Encodes loadsPastTheEnd.currentWord (.load 2) ∧
      Encodes (loadsPastTheEnd.after 1).currentWord (.store 2) ∧
      (loadsPastTheEnd.after 2).memory = loadsPastTheEnd.memory) ∧
    Encodes convertsAcross.currentWord (.decimal 5) ∧
      ∃ d₀ d₁ d₂ : UInt8, (convertsAcross.after 1).memory.bytesFrom 0x0ffe 3 = [d₀, d₁, d₂] ∧
        100 * d₀.toNat + 10 * d₁.toNat + d₂.toNat = 254 := by
  have hstore : Encodes storesItsLoad.currentWord (.store 3) :=
    Instruction.decode_eq_iff.1 (by decide +kernel)
  have hstored : Encodes (storesItsLoad.after 1).currentWord (.load 3) :=
    Instruction.decode_eq_iff.1 (by decide +kernel)
  have hload : Encodes loadsPastTheEnd.currentWord (.load 2) :=
    Instruction.decode_eq_iff.1 (by decide +kernel)
  have hloaded : Encodes (loadsPastTheEnd.after 1).currentWord (.store 2) :=
    Instruction.decode_eq_iff.1 (by decide +kernel)
  have hdecimal : Encodes convertsAcross.currentWord (.decimal 5) :=
    Instruction.decode_eq_iff.1 (by decide +kernel)
  obtain ⟨-, -, hback⟩ := (transfers_undone storesItsLoad 3).1 hstore hstored
  obtain ⟨-, -, hsame⟩ := (transfers_undone loadsPastTheEnd 2).2.1 hload hloaded
  obtain ⟨-, d₀, d₁, d₂, hdigits, -, -, -, hvalue⟩ :=
    (transfers_undone convertsAcross 5).2.2 hdecimal
  refine ⟨⟨hstore, hstored, ?_⟩, ⟨hload, hloaded, ?_⟩, hdecimal, d₀, d₁, d₂, hdigits, hvalue⟩
  · rw [hback]
    rfl
  · rw [hsame]

end

end Cpu

end Chip8
