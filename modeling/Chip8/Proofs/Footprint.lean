/-
**What a word may change.**

A processor is a good many parts, and an instruction is there to change one or two of them.  An
instruction that changes another one as well, the flag or a cell that is next to the right one, goes
unnoticed until a program relies on it.  So this module says for each part which words may change
it, and shows that a step changes nothing else.

There are two tables.  The first goes by instructions and lists the parts that each of them writes
to; that an instruction writes to no other part is shown one instruction at a time.  The second goes
by words and parts, the way a manual has it, and follows from the first one by what a word is decoded
to.  A part can be as small as a cell of memory or a slot of the stack, and two processors that agree
in all parts are the same.

Main definitions:

* `Chip8.Part` — a part of the state of a processor;
* `Chip8.Cpu.Agrees` — two processors agree in a part;
* `Chip8.Cpu.writes` — the parts that an instruction writes to;
* `Chip8.Cpu.MayChange` — **the parts that a word may change**.

Main results:

* `Chip8.Cpu.eq_of_agrees` — the parts are all there is;
* `Chip8.Cpu.execute_agrees` — an instruction leaves alone what it does not write to;
* `Chip8.Cpu.mayChange_of_writes`, `Chip8.Cpu.step_agrees` — from the one table to the other;
* `Chip8.Cpu.step_footprint` — **what a step changes**.
-/
import Chip8.Proofs.Writing
import Chip8.Proofs.Encoding

set_option relaxedAutoImplicit false
set_option autoImplicit false

namespace Chip8

/-- A part of the state of a processor. -/
inductive Part where
  | pc
  | index
  | sp
  /-- A slot of the call stack. -/
  | slot (n : Nat)
  | register (x : Nat)
  /-- A cell of memory. -/
  | cell (n : Fin 4096)
  /-- Where programs go. -/
  | programAddr
  /-- Where glyphs go. -/
  | glyphAddr
  | screen
  | drawPending
  | delay
  | sound
  | keypad
  | random
deriving DecidableEq, Repr

/-! ### Writing to registers -/

namespace Registers

/-- A byte that is put into a register is not seen in another one. -/
theorem get_set_ne {x y : Nat} (h : x ≠ y) (r : Registers) (byte : UInt8) :
    (r.set x byte).get y = r.get y := by
  by_cases hx : x < 16
  · exact get_set_of_ne r hx h byte
  · simp [set, Vector.setIfInBounds, Array.setIfInBounds, hx]

/-- Bytes that are put into registers in a row are not seen in any other one. -/
theorem get_foldl_set {numbers : List Nat} {y : Nat} (h : y ∉ numbers) (bytes : Nat → UInt8)
    (r : Registers) :
    (numbers.foldl (fun r n => r.set n (bytes n)) r).get y = r.get y := by
  induction numbers generalizing r with
  | nil => rfl
  | cons n numbers ih =>
      obtain ⟨hne, hrest⟩ := List.ne_and_not_mem_of_not_mem_cons h
      rw [List.foldl_cons, ih hrest, get_set_ne hne.symm]

end Registers

namespace Cpu

/-! ### Agreeing in parts -/

/-- Two processors agree in a part of their states. -/
def Agrees (c c' : Cpu) : Part → Prop
  | .pc => c.registers.pc = c'.registers.pc
  | .index => c.registers.i = c'.registers.i
  | .sp => c.registers.sp = c'.registers.sp
  | .slot n => c.registers.stack[n]? = c'.registers.stack[n]?
  | .register x => c.registers.get x = c'.registers.get x
  | .cell n => c.memory.cells.get n = c'.memory.cells.get n
  | .programAddr => c.memory.programAddr = c'.memory.programAddr
  | .glyphAddr => c.memory.glyphAddr = c'.memory.glyphAddr
  | .screen => c.screen = c'.screen
  | .drawPending => c.drawPending = c'.drawPending
  | .delay => c.timers.delay = c'.timers.delay
  | .sound => c.timers.sound = c'.timers.sound
  | .keypad => c.keypad = c'.keypad
  | .random => c.random = c'.random

/-- **The parts are all there is.** -/
theorem eq_of_agrees {c c' : Cpu} (h : ∀ part, c.Agrees c' part) : c = c' := by
  obtain ⟨⟨cells, programAddr, glyphAddr⟩, ⟨v, i, pc, sp, stack⟩, screen, ⟨delay, sound⟩, keypad,
    random, drawPending⟩ := c
  obtain ⟨⟨cells', programAddr', glyphAddr'⟩, ⟨v', i', pc', sp', stack'⟩, screen', ⟨delay', sound'⟩,
    keypad', random', drawPending'⟩ := c'
  have hcells : cells = cells' := Vector.ext fun n hn => h (.cell ⟨n, hn⟩)
  have hv : v = v' := Vector.ext fun x hx => by
    simpa [Agrees, Registers.get, Vector.getD, hx] using h (.register x)
  have hstack : stack = stack' := Vector.ext fun n hn => by
    simpa [Agrees, hn] using h (.slot n)
  cases hcells
  cases hv
  cases hstack
  cases h .programAddr
  cases h .glyphAddr
  cases h .pc
  cases h .index
  cases h .sp
  cases h .screen
  cases h .delay
  cases h .sound
  cases h .keypad
  cases h .random
  cases h .drawPending
  rfl

theorem Agrees.refl (c : Cpu) (part : Part) : c.Agrees c part := by
  cases part <;> rfl

theorem Agrees.trans {c c' c'' : Cpu} {part : Part} (h : c.Agrees c' part)
    (h' : c'.Agrees c'' part) : c.Agrees c'' part := by
  cases part <;> exact Eq.trans h h'

variable {c : Cpu} {part : Part}

theorem agrees_skipIf (h : part ≠ .pc) (condition : Bool) : (c.skipIf condition).Agrees c part := by
  cases condition with
  | false => exact .refl c part
  | true =>
      cases part
      case pc => exact absurd rfl h
      all_goals rfl

theorem agrees_set {x : Nat} (h : part ≠ .register x) (byte : UInt8) :
    { c with registers := c.registers.set x byte }.Agrees c part := by
  cases part
  case register y => exact Registers.get_set_ne (fun hxy => h (congrArg Part.register hxy.symm)) _ _
  all_goals rfl

theorem agrees_setWithFlag {x : Nat} (hresult : part ≠ .register x)
    (hflag : part ≠ .register 0xf) (result : UInt8) (on : Bool) :
    { c with registers := setWithFlag c.registers x result on }.Agrees c part :=
  (agrees_set (c := { c with registers := c.registers.set x result }) hflag on.toUInt8).trans
    (agrees_set hresult result)

theorem agrees_writeBytes {bytes : List UInt8}
    (h : ∀ k < bytes.length, part ≠ .cell (Memory.cellAfter c.registers.i k)) :
    { c with memory := c.memory.writeBytes c.registers.i bytes }.Agrees c part := by
  cases part
  case cell n =>
    exact Memory.cells_writeBytes_of_ne (fun k hk hcell => h k hk (congrArg Part.cell hcell.symm)) _
  case programAddr => exact (Memory.writeBytes_addrs ..).1
  case glyphAddr => exact (Memory.writeBytes_addrs ..).2
  all_goals rfl

theorem agrees_draw (hflag : part ≠ .register 0xf) (hscreen : part ≠ .screen)
    (hpending : part ≠ .drawPending) (x y height : Nat) : (c.draw x y height).Agrees c part := by
  cases part
  case register z => exact agrees_set (c := c) hflag _
  case screen => exact absurd rfl hscreen
  case drawPending => exact absurd rfl hpending
  all_goals rfl

theorem get_fillRegisters {x y : Nat} (h : x < y) (m : Memory) (r : Registers) :
    (fillRegisters m r x).get y = r.get y := by
  refine Registers.get_foldl_set ?_ (fun n => m.read (r.i + UInt16.ofNat n)) r
  rw [List.mem_range]
  omega

theorem agrees_fillRegisters {x : Nat} (h : ∀ y ≤ x, part ≠ .register y) :
    { c with registers := fillRegisters c.memory c.registers x }.Agrees c part := by
  rw [fillRegisters_eq]
  cases part
  case register y =>
    have hlt : x < y := Nat.lt_of_not_le fun hle => h y hle rfl
    exact get_fillRegisters hlt c.memory c.registers
  all_goals rfl

theorem agrees_ret (hpc : part ≠ .pc) (hsp : part ≠ .sp) : (c.execute .ret).2.Agrees c part := by
  cases hdepth : c.registers.sp with
  | zero =>
      simp only [execute, Registers.pop, hdepth]
      exact .refl c part
  | succ n =>
      simp only [execute, Registers.pop, hdepth]
      cases part
      case pc => exact absurd rfl hpc
      case sp => exact absurd rfl hsp
      all_goals rfl

theorem agrees_call (hpc : part ≠ .pc) (hsp : part ≠ .sp) (hslot : part ≠ .slot c.registers.sp)
    (target : UInt16) : (c.execute (.call target)).2.Agrees c part := by
  by_cases hroom : c.registers.sp < 16
  · simp only [execute, Registers.push, hroom, dite_true]
    cases part
    case pc => exact absurd rfl hpc
    case sp => exact absurd rfl hsp
    case slot n =>
      exact Vector.getElem?_set_ne hroom fun hn => hslot (congrArg Part.slot hn.symm)
    all_goals rfl
  · simp only [execute, Registers.push, hroom, dite_false]
    exact .refl c part

/-! ### What an instruction writes to -/

/-- The parts that an instruction writes to. -/
def writes (c : Cpu) : Instruction → List Part
  | .clearScreen => [.screen]
  | .ret => [.pc, .sp]
  | .call _ => [.pc, .sp, .slot c.registers.sp]
  | .jump _ | .jumpFrom _ => [.pc]
  | .skipIfByte _ _ | .skipUnlessByte _ _ | .skipIfSame _ _ | .skipUnlessSame _ _
  | .skipIfKey _ | .skipUnlessKey _ => [.pc]
  | .setByte x _ | .addByte x _ | .copy x _ | .or x _ | .and x _ | .xor x _ | .readDelay x =>
    [.register x]
  | .add x _ | .sub x _ | .subFrom x _ | .shiftRight x | .shiftLeft x =>
    [.register x, .register 0xf]
  | .random x _ => [.register x, .random]
  | .draw _ _ _ => [.register 0xf, .screen, .drawPending]
  | .setIndex _ | .addIndex _ | .glyph _ => [.index]
  | .setDelay _ => [.delay]
  | .setSound _ => [.sound]
  | .decimal _ => (List.range 3).map fun k => .cell (Memory.cellAfter c.registers.i k)
  | .store x => (List.range (x + 1)).map fun k => .cell (Memory.cellAfter c.registers.i k)
  | .load x => (List.range (x + 1)).map .register
  | .awaitKey _ | .undefined _ => []

/-- **An instruction leaves alone what it does not write to.** -/
theorem execute_agrees (c : Cpu) (instruction : Instruction) {part : Part}
    (h : part ∉ c.writes instruction) : (c.execute instruction).2.Agrees c part := by
  cases instruction
  case clearScreen =>
    cases part
    case screen => exact absurd (List.mem_singleton.2 rfl) h
    all_goals rfl
  case setIndex | addIndex | glyph =>
    cases part
    case index => exact absurd (List.mem_singleton.2 rfl) h
    all_goals rfl
  case setDelay =>
    cases part
    case delay => exact absurd (List.mem_singleton.2 rfl) h
    all_goals rfl
  case setSound =>
    cases part
    case sound => exact absurd (List.mem_singleton.2 rfl) h
    all_goals rfl
  case jump | jumpFrom =>
    cases part
    case pc => exact absurd (List.mem_singleton.2 rfl) h
    all_goals rfl
  case skipIfByte | skipUnlessByte | skipIfSame | skipUnlessSame | skipIfKey | skipUnlessKey =>
    exact agrees_skipIf (fun hpart => h (List.mem_singleton.2 hpart)) _
  case setByte | addByte | copy | or | and | xor | readDelay =>
    exact agrees_set (fun hpart => h (List.mem_singleton.2 hpart)) _
  case add | sub | subFrom | shiftRight | shiftLeft =>
    obtain ⟨hresult, hflag⟩ : part ≠ .register _ ∧ part ≠ .register 0xf := by simpa [writes] using h
    exact agrees_setWithFlag hresult hflag _ _
  case random x mask =>
    obtain ⟨hresult, hrandom⟩ : part ≠ .register x ∧ part ≠ .random := by simpa [writes] using h
    cases part
    case register y => exact agrees_set (c := c) hresult _
    case random => exact absurd rfl hrandom
    all_goals rfl
  case draw x y height =>
    obtain ⟨hflag, hscreen, hpending⟩ :
      part ≠ .register 0xf ∧ part ≠ .screen ∧ part ≠ .drawPending := by simpa [writes] using h
    exact agrees_draw hflag hscreen hpending x y height
  case decimal x =>
    refine agrees_writeBytes fun k hk hpart => h ?_
    exact List.mem_map.2 ⟨k, List.mem_range.2 hk, hpart.symm⟩
  case store x =>
    refine agrees_writeBytes fun k hk hpart => h ?_
    rw [firstRegisters, List.length_map, List.length_range] at hk
    exact List.mem_map.2 ⟨k, List.mem_range.2 hk, hpart.symm⟩
  case load x =>
    refine agrees_fillRegisters fun y hy hpart => h ?_
    exact List.mem_map.2 ⟨y, List.mem_range.2 (Nat.lt_succ_of_le hy), hpart.symm⟩
  case ret =>
    obtain ⟨hpc, hsp⟩ : part ≠ .pc ∧ part ≠ .sp := by simpa [writes] using h
    exact agrees_ret hpc hsp
  case call target =>
    obtain ⟨hpc, hsp, hslot⟩ : part ≠ .pc ∧ part ≠ .sp ∧ part ≠ .slot c.registers.sp := by
      simpa [writes] using h
    exact agrees_call hpc hsp hslot target
  case awaitKey | undefined => exact .refl c part

/-! ### What a word may change -/

open Word (first second last byte Undefined)

/-- The parts of its state that a processor may change in its next step: which words may change a
part. -/
def MayChange (c : Cpu) : Part → Prop
  | .pc => True
  | .index =>
    first c.currentWord = 0xa ∨
      first c.currentWord = 0xf ∧ (byte c.currentWord = 0x1e ∨ byte c.currentWord = 0x29)
  | .sp => first c.currentWord = 0x2 ∨ c.currentWord = 0x00ee
  | .slot n => first c.currentWord = 0x2 ∧ n = c.registers.sp
  | .register x =>
    x = second c.currentWord ∧
        (first c.currentWord ∈ [0x6, 0x7, 0x8, 0xc] ∨
          first c.currentWord = 0xf ∧ byte c.currentWord = 0x07) ∨
      x = 0xf ∧
        (first c.currentWord = 0x8 ∧ last c.currentWord ∈ [0x4, 0x5, 0x6, 0x7, 0xe] ∨
          first c.currentWord = 0xd) ∨
      x ≤ second c.currentWord ∧ first c.currentWord = 0xf ∧ byte c.currentWord = 0x65
  | .cell n =>
    first c.currentWord = 0xf ∧
      (byte c.currentWord = 0x33 ∧ (∃ k < 3, n = Memory.cellAfter c.registers.i k) ∨
        byte c.currentWord = 0x55 ∧
          ∃ k < second c.currentWord + 1, n = Memory.cellAfter c.registers.i k)
  | .screen => c.currentWord = 0x00e0 ∨ first c.currentWord = 0xd
  | .drawPending => first c.currentWord = 0xd
  | .delay => first c.currentWord = 0xf ∧ byte c.currentWord = 0x15
  | .sound => first c.currentWord = 0xf ∧ byte c.currentWord = 0x18
  | .random => first c.currentWord = 0xc
  | .programAddr | .glyphAddr | .keypad => False

instance (c : Cpu) (part : Part) : Decidable (c.MayChange part) :=
  match part with
  | .pc => inferInstanceAs (Decidable True)
  | .index | .sp | .screen => inferInstanceAs (Decidable (_ ∨ _))
  | .slot _ | .cell _ | .delay | .sound => inferInstanceAs (Decidable (_ ∧ _))
  | .register _ => inferInstanceAs (Decidable (_ ∨ _ ∨ _))
  | .drawPending | .random => inferInstanceAs (Decidable (_ = _))
  | .programAddr | .glyphAddr | .keypad => inferInstanceAs (Decidable False)

/-- What the instruction of a word writes to, the word may change. -/
theorem mayChange_of_writes {c : Cpu} {part : Part}
    (h : part ∈ c.writes (.decode c.currentWord)) : c.MayChange part := by
  have hencodes := Instruction.encodes_decode c.currentWord
  generalize Instruction.decode c.currentWord = instruction at h hencodes
  -- first the ranges of cells and registers, whose members say where they come from
  cases instruction <;>
    simp only [writes, Instruction.Encodes, List.mem_cons, List.not_mem_nil, or_false, List.mem_map,
      List.mem_range] at h hencodes
  case decimal x =>
    obtain ⟨k, hk, rfl⟩ := h
    exact ⟨hencodes.1, .inl ⟨hencodes.2.1, k, hk, rfl⟩⟩
  case store x =>
    obtain ⟨hfirst, hbyte, rfl⟩ := hencodes
    obtain ⟨k, hk, rfl⟩ := h
    exact ⟨hfirst, .inr ⟨hbyte, k, hk, rfl⟩⟩
  case load x =>
    obtain ⟨hfirst, hbyte, rfl⟩ := hencodes
    obtain ⟨y, hy, rfl⟩ := h
    exact .inr (.inr ⟨Nat.le_of_lt_succ hy, hfirst, hbyte⟩)
  case call | draw => obtain rfl | rfl | rfl := h <;> simp [MayChange, hencodes]
  case ret | add | sub | subFrom | shiftRight | shiftLeft | random =>
    obtain rfl | rfl := h <;> simp [MayChange, hencodes]
  all_goals
    subst h
    simp [MayChange, hencodes]

/-- A step leaves alone what its word does not let it change. -/
theorem step_agrees {c : Cpu} {part : Part} (h : ¬ c.MayChange part) :
    c.step.cpu.Agrees c part := by
  have hpc : part ≠ .pc := by
    rintro rfl
    exact h trivial
  have hskipped : { c with registers := c.registers.skip }.Agrees c part := agrees_skipIf hpc true
  -- moving on changes neither the index register nor the depth, which say where things are written
  have hwrites : part ∉ { c with registers := c.registers.skip }.writes (.decode c.currentWord) :=
    fun hmem => h (mayChange_of_writes hmem)
  exact (execute_agrees _ _ hwrites).trans hskipped

/-- A decimal conversion writes the digits from the index register on. -/
theorem step_of_decimal {x : Nat} (h : (Instruction.decimal x).Encodes c.currentWord) :
    c.step.outcome = .ok .next ∧
      c.step.cpu =
        { c with
          registers := c.registers.skip
          memory := c.memory.writeBytes c.registers.i (decimalDigits (c.registers.get x)) } := by
  rw [step_outcome, step_cpu, Instruction.decode_eq_iff.2 h]
  exact ⟨rfl, rfl⟩

/-- A store writes the first registers from the index register on. -/
theorem step_of_store {x : Nat} (h : (Instruction.store x).Encodes c.currentWord) :
    c.step.outcome = .ok .next ∧
      c.step.cpu =
        { c with
          registers := c.registers.skip
          memory := c.memory.writeBytes c.registers.i (firstRegisters c.registers x) } := by
  rw [step_outcome, step_cpu, Instruction.decode_eq_iff.2 h]
  exact ⟨rfl, rfl⟩

/-- **What a step changes.**  A step changes no part of a processor but those that its word may
change, and the parts are all there is.  A decimal conversion fills three cells with the digits, and
a store fills the cells from the index register on with the first registers.  A word outside of the
instruction set does nothing but move on. -/
theorem step_footprint (c : Cpu) :
    (∀ part, ¬ c.MayChange part → c.step.cpu.Agrees c part) ∧
      (∀ c' : Cpu, (∀ part, c.Agrees c' part) → c = c') ∧
      (first c.currentWord = 0xf → byte c.currentWord = 0x33 → ∀ k < 3,
        (decimalDigits (c.registers.get (second c.currentWord)))[k]? =
          some (c.step.cpu.memory.cells.get (Memory.cellAfter c.registers.i k))) ∧
      (first c.currentWord = 0xf → byte c.currentWord = 0x55 → ∀ k ≤ second c.currentWord,
        c.step.cpu.memory.cells.get (Memory.cellAfter c.registers.i k) = c.registers.get k) ∧
      (Undefined c.currentWord →
        c.step.outcome = .ok .next ∧
          c.step.cpu = { c with registers := { c.registers with pc := c.registers.pc + 2 } }) := by
  refine ⟨fun part => step_agrees, fun c' => eq_of_agrees, ?_, ?_, ?_⟩
  · intro hfirst hbyte k hk
    have hlength : (decimalDigits (c.registers.get (second c.currentWord))).length = 3 := rfl
    have hbelow : k < (decimalDigits (c.registers.get (second c.currentWord))).length := hk
    have hwritten := Memory.cells_writeBytes (by omega) c.memory c.registers.i hbelow
    rw [(step_of_decimal ⟨hfirst, hbyte, rfl⟩).2, List.getElem?_eq_getElem hbelow]
    exact congrArg some hwritten.symm
  · intro hfirst hbyte k hk
    have hregister : second c.currentWord < 16 := Nat.mod_lt _ (by decide)
    have hlength : (firstRegisters c.registers (second c.currentWord)).length =
        second c.currentWord + 1 := by simp [firstRegisters]
    have hbelow : k < (firstRegisters c.registers (second c.currentWord)).length := by omega
    have hstored : (firstRegisters c.registers (second c.currentWord))[k] = c.registers.get k := by
      simp [firstRegisters]
    rw [(step_of_store ⟨hfirst, hbyte, rfl⟩).2]
    exact (Memory.cells_writeBytes (by omega) c.memory c.registers.i hbelow).trans hstored
  · intro hundefined
    rw [step_outcome, step_cpu, Instruction.decode_of_undefined hundefined]
    exact ⟨rfl, rfl⟩

/-- An addition may change its register and the flag, and where the next word is. -/
example : [Part.pc, .register 1, .register 2, .register 0xf, .index, .cell 0x202, .screen].filter
    (((Cpu.new 0).load [0x81, 0x24]).MayChange ·) = [.pc, .register 1, .register 0xf] := by
  decide +kernel

end Cpu

end Chip8
