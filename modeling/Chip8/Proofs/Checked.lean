/-
**Checked execution.**

A processor never looks past the end of an array and never leaves the range of an integer type
where it counts on staying in it.  To be able to say so, this module executes instructions once more
with everything checked.  A number that is not the number of a register, a stack slot, a byte of
memory or a cell of the screen has no result, and a sum or a product that does not fit its type has
none either: sixteen bits for the target of a jump and the address of a glyph, thirty-two bits with
a sign for the coordinates on the screen.  In a well-formed state there always is a result, and it
is the usual one.

Main definitions:

* `Chip8.Checked` — what can be checked: a place in an array, a sum, a product, a coordinate;
* `Chip8.Cpu.execute?`, `Chip8.Cpu.step?` — an instruction and a step, checked.

Main results:

* `Chip8.Cpu.execute?_eq` — the checks succeed for operands that exist;
* `Chip8.Cpu.step?_eq` — **in a well-formed state every check succeeds**.
-/
import Chip8.Proofs.WellFormed

set_option relaxedAutoImplicit false
set_option autoImplicit false

namespace Chip8

/-! ### What can be checked -/

namespace Checked

/-- Put an element at a place of an array, if there is such a place. -/
def put {α : Type} {n : Nat} (cells : Vector α n) (k : Nat) (a : α) : Option (Vector α n) :=
  if h : k < n then some (cells.set k a h) else none

/-- A sum, if it has sixteen bits. -/
def add16 (a b : UInt16) : Option UInt16 :=
  if a.toNat + b.toNat < 0x10000 then some (a + b) else none

/-- A product, if it has sixteen bits. -/
def mul16 (a b : UInt16) : Option UInt16 :=
  if a.toNat * b.toNat < 0x10000 then some (a * b) else none

/-- A number, if it has thirty-two bits with its sign. -/
def int32 (n : Int) : Option Int :=
  if -0x80000000 ≤ n ∧ n < 0x80000000 then some n else none

theorem put_eq {α : Type} {n k : Nat} (h : k < n) (cells : Vector α n) (a : α) :
    put cells k a = some (cells.set k a h) := by
  simp [put, h]

theorem add16_eq {a b : UInt16} (h : a.toNat + b.toNat < 0x10000) : add16 a b = some (a + b) :=
  if_pos h

theorem mul16_eq {a b : UInt16} (h : a.toNat * b.toNat < 0x10000) : mul16 a b = some (a * b) :=
  if_pos h

theorem int32_eq {n : Int} (h : -0x80000000 ≤ n ∧ n < 0x80000000) : int32 n = some n :=
  if_pos h

theorem mapM_eq_some {α β : Type} {f : α → Option β} {g : α → β} {l : List α}
    (h : ∀ a ∈ l, f a = some (g a)) : l.mapM f = some (l.map g) := by
  induction l with
  | nil => rfl
  | cons a l ih =>
      have hhead := h a (List.mem_cons_self ..)
      have htail := ih fun b hb => h b (List.mem_cons_of_mem _ hb)
      rw [List.mapM_cons, hhead, htail]
      rfl

theorem foldlM_eq_some {α β : Type} {f : β → α → Option β} {g : β → α → β} {l : List α}
    (h : ∀ b, ∀ a ∈ l, f b a = some (g b a)) (b : β) :
    l.foldlM f b = some (l.foldl g b) := by
  induction l generalizing b with
  | nil => rfl
  | cons a l ih =>
      have htail := ih fun b' a' ha' => h b' a' (List.mem_cons_of_mem _ ha')
      rw [List.foldlM_cons, h b a (List.mem_cons_self ..), Option.bind_eq_bind, Option.bind_some,
        htail, List.foldl_cons]

end Checked

open Checked

/-! ### Registers and the stack -/

namespace Registers

/-- The byte in a register, if the register exists. -/
def get? (r : Registers) (x : Nat) : Option UInt8 :=
  r.v[x]?

/-- Put a byte into a register, if it exists. -/
def set? (r : Registers) (x : Nat) (byte : UInt8) : Option Registers := do
  let v ← put r.v x byte
  return { r with v := v }

/-- Note the program counter on the stack, if the slot exists. -/
def push? (r : Registers) : Option (Except Error Registers) :=
  if r.sp < stackDepth then do
    let stack ← put r.stack r.sp r.pc
    return .ok { r with stack := stack, sp := r.sp + 1 }
  else return .error (.stackOverflow r.pc)

/-- Take the program counter from the stack, if the slot exists. -/
def pop? (r : Registers) : Option (Except Error Registers) :=
  match r.sp with
  | 0 => return .error (.stackUnderflow r.pc)
  | n + 1 => do
    let pc ← r.stack[n]?
    return .ok { r with pc := pc, sp := n }

theorem get?_eq {x : Nat} (hx : x < 16) (r : Registers) : r.get? x = some (r.get x) := by
  simp [get?, get, Vector.getD, hx]

theorem set?_eq {x : Nat} (hx : x < 16) (r : Registers) (byte : UInt8) :
    r.set? x byte = some (r.set x byte) := by
  simp [set?, set_eq r hx, put_eq hx]

theorem push?_eq (r : Registers) : r.push? = some r.push := by
  unfold push? push
  by_cases h : r.sp < stackDepth
  · simp [h, put_eq (show r.sp < 16 from h)]
  · simp [h]

theorem pop?_eq {r : Registers} (h : r.sp ≤ 16) : r.pop? = some r.pop := by
  unfold pop? pop
  cases hsp : r.sp with
  | zero => rfl
  | succ n =>
      have hn : n < 16 := by omega
      simp [Vector.getD, hn]

end Registers

/-! ### Memory -/

namespace Memory

/-- The byte at an address, if its cell exists. -/
def read? (m : Memory) (addr : UInt16) : Option UInt8 :=
  m.cells[addr.toNat % m.size]?

/-- Put a byte at an address, if its cell exists. -/
def write? (m : Memory) (addr : UInt16) (byte : UInt8) : Option Memory := do
  let cells ← put m.cells (addr.toNat % m.size) byte
  return { m with cells := cells }

/-- The word at an address. -/
def word? (m : Memory) (addr : UInt16) : Option UInt16 := do
  let high ← m.read? addr
  let low ← m.read? (addr + 1)
  return (high.toUInt16 <<< 8) ||| low.toUInt16

/-- Put bytes at consecutive addresses. -/
def writeBytes? (m : Memory) (addr : UInt16) : List UInt8 → Option Memory
  | [] => return m
  | b :: bs => do
    let m ← m.write? addr b
    writeBytes? m (addr + 1) bs

/-- Where the glyph of a digit begins, if that is an address. -/
def glyphAddress? (m : Memory) (digit : UInt8) : Option UInt16 := do
  let offset ← mul16 (digit &&& 0x0f).toUInt16 glyphHeight
  add16 m.glyphAddr offset

theorem read?_eq (m : Memory) (addr : UInt16) : m.read? addr = some (m.read addr) := by
  have h : addr.toNat % 4096 < 4096 := Nat.mod_lt _ (by decide)
  simp [read?, read, size, cellOf, h]

theorem write?_eq (m : Memory) (addr : UInt16) (byte : UInt8) :
    m.write? addr byte = some (m.write addr byte) := by
  have h : addr.toNat % 4096 < 4096 := Nat.mod_lt _ (by decide)
  simp [write?, write, size, cellOf, put_eq h]

theorem word?_eq (m : Memory) (addr : UInt16) : m.word? addr = some (m.word addr) := by
  simp [word?, word, read?_eq]

theorem writeBytes?_eq (bytes : List UInt8) (m : Memory) (addr : UInt16) :
    m.writeBytes? addr bytes = some (m.writeBytes addr bytes) := by
  induction bytes generalizing m addr with
  | nil => rfl
  | cons b bs ih => simp [writeBytes?, write?_eq, ih]

/-- The address of a glyph stays in range, if that of the last one does. -/
theorem glyphAddress?_eq {m : Memory} (h : m.glyphAddr.toNat + 75 ≤ 65535) (digit : UInt8) :
    m.glyphAddress? digit = some (m.glyphAddress digit) := by
  have hdigit : (digit &&& 0x0f).toUInt16.toNat ≤ 15 := by
    simpa using Nat.and_le_right
  have hheight : glyphHeight.toNat = 5 := rfl
  have hproduct : (digit &&& 0x0f).toUInt16.toNat * glyphHeight.toNat < 0x10000 := by
    rw [hheight]
    omega
  have hsum : m.glyphAddr.toNat + ((digit &&& 0x0f).toUInt16 * glyphHeight).toNat < 0x10000 := by
    rw [UInt16.toNat_mul, Nat.mod_eq_of_lt hproduct, hheight]
    omega
  rw [glyphAddress?, mul16_eq hproduct, Option.bind_eq_bind, Option.bind_some, add16_eq hsum]
  rfl

end Memory

/-! ### The screen -/

namespace Screen

/-- Bring a coordinate back by the size of its axis, once. -/
def wrapOnce? (size n : Int) : Option Int :=
  if size ≤ n then int32 (n - size) else if n < 0 then int32 (n + size) else some n

/-- The number of the cell at column `x` and row `y`. -/
def cellAt? (x y : Int) : Option Nat := do
  let x ← wrapOnce? 64 x
  let y ← wrapOnce? 32 y
  let above ← int32 (64 * y)
  let n ← int32 (x + above)
  return (n % 2048).toNat

/-- Flip a cell, if it exists. -/
def flip? (s : Screen) (x y : Int) : Option (Bool × Screen) := do
  let k ← cellAt? x y
  let lit ← s.cells[k]?
  let cells ← put s.cells k (!lit)
  return (lit, ⟨cells⟩)

/-- Flip cells one after another. -/
def flipEach? (s : Screen) : List (Int × Int) → Option (List Bool × Screen)
  | [] => return ([], s)
  | (x, y) :: points => do
    let (erased, s) ← s.flip? x y
    let (rest, s) ← s.flipEach? points
    return (erased :: rest, s)

/-- A coordinate that the screen can take: not too far off the edge. -/
def InReach (n : Int) : Prop :=
  -0x100000 ≤ n ∧ n < 0x100000

theorem wrapOnce?_eq {size n : Int} (hsize : 0 ≤ size ∧ size ≤ 64) (hn : InReach n) :
    wrapOnce? size n = some (wrapOnce size n) := by
  obtain ⟨hlow, hhigh⟩ := hn
  unfold wrapOnce? wrapOnce
  split
  · exact int32_eq (by omega)
  · split
    · exact int32_eq (by omega)
    · rfl

theorem InReach.wrapOnce {size n : Int} (hsize : 0 ≤ size ∧ size ≤ 64) (hn : InReach n) :
    InReach (wrapOnce size n) := by
  obtain ⟨hlow, hhigh⟩ := hn
  unfold Screen.wrapOnce InReach
  split
  · omega
  · split <;> omega

theorem cellAt?_eq {x y : Int} (hx : InReach x) (hy : InReach y) :
    cellAt? x y = some (cellAt x y).val := by
  have hwidth : (0 : Int) ≤ 64 ∧ (64 : Int) ≤ 64 := by decide
  have hheight : (0 : Int) ≤ 32 ∧ (32 : Int) ≤ 64 := by decide
  obtain ⟨hxlow, hxhigh⟩ := hx.wrapOnce hwidth
  obtain ⟨hylow, hyhigh⟩ := hy.wrapOnce hheight
  have habove : int32 (64 * wrapOnce 32 y) = some (64 * wrapOnce 32 y) := int32_eq (by omega)
  have hsum : int32 (wrapOnce 64 x + 64 * wrapOnce 32 y) =
      some (wrapOnce 64 x + 64 * wrapOnce 32 y) := int32_eq (by omega)
  simp [cellAt?, cellAt, wrapOnce?_eq hwidth hx, wrapOnce?_eq hheight hy, habove, hsum]

theorem flip?_eq (s : Screen) {x y : Int} (hx : InReach x) (hy : InReach y) :
    s.flip? x y = some (s.flip x y) := by
  simp [flip?, flip, cellAt?_eq hx hy, put_eq (cellAt x y).isLt]

theorem flipEach?_eq (s : Screen) {points : List (Int × Int)}
    (h : ∀ p ∈ points, InReach p.1 ∧ InReach p.2) :
    s.flipEach? points = some (s.flipEach points) := by
  induction points generalizing s with
  | nil => rfl
  | cons p points ih =>
      obtain ⟨hx, hy⟩ := h p (List.mem_cons_self ..)
      have hrest := fun s' => ih s' fun q hq => h q (List.mem_cons_of_mem _ hq)
      simp [flipEach?, flip?_eq s hx hy, hrest, flipEach_cons]

end Screen

/-! ### The processor -/

namespace Cpu

/-- Put a result into a register and then a bit into the flag. -/
def setWithFlag? (r : Registers) (x : Nat) (result : UInt8) (on : Bool) : Option Registers := do
  let r ← r.set? x result
  r.set? Registers.flagIndex on.toUInt8

/-- The register file after an instruction of the arithmetic family. -/
def arithmetic? (r : Registers) : Instruction → Option Registers
  | .setByte x byte => r.set? x byte
  | .addByte x byte => do r.set? x ((← r.get? x) + byte)
  | .copy x y => do r.set? x (← r.get? y)
  | .or x y => do r.set? x ((← r.get? x) ||| (← r.get? y))
  | .and x y => do r.set? x ((← r.get? x) &&& (← r.get? y))
  | .xor x y => do r.set? x ((← r.get? x) ^^^ (← r.get? y))
  | .add x y => do
    let a ← r.get? x
    let b ← r.get? y
    setWithFlag? r x (a + b) (255 < a.toNat + b.toNat)
  | .sub x y => do
    let a ← r.get? x
    let b ← r.get? y
    setWithFlag? r x (a - b) (b < a)
  | .subFrom x y => do
    let a ← r.get? x
    let b ← r.get? y
    setWithFlag? r x (b - a) (a < b)
  | .shiftRight x => do
    let a ← r.get? x
    setWithFlag? r x (a >>> 1) (a &&& 1 == 1)
  | .shiftLeft x => do
    let a ← r.get? x
    setWithFlag? r x (a <<< 1) (a >>> 7 == 1)
  | _ => return r

/-- The points of one row of a sprite. -/
def spriteRow? (m : Memory) (i : UInt16) (left top : Int) (row : Nat) :
    Option (List (Int × Int)) := do
  let byte ← m.read? (i + UInt16.ofNat row)
  (litColumns byte).mapM fun (col : Nat) => do
    let x ← int32 (left + col)
    let y ← int32 (top + row)
    return (x, y)

/-- The points that a sprite covers. -/
def spritePoints? (m : Memory) (i : UInt16) (left top : Int) (height : Nat) :
    Option (List (Int × Int)) := do
  let rows ← (List.range height).mapM (spriteRow? m i left top)
  return rows.flatten

/-- Flip the points of a sprite. -/
def draw? (c : Cpu) (x y height : Nat) : Option Cpu := do
  let left ← c.registers.get? x
  let top ← c.registers.get? y
  let points ← spritePoints? c.memory c.registers.i left.toNat top.toNat height
  let (erased, screen) ← c.screen.flipEach? points
  let r ← c.registers.set? Registers.flagIndex (erased.any id).toUInt8
  return { c with screen := screen, registers := r, drawPending := true }

/-- The registers `V0` to `Vx`. -/
def firstRegisters? (r : Registers) (x : Nat) : Option (List UInt8) :=
  (List.range (x + 1)).mapM r.get?

/-- Fill the registers `V0` to `Vx` from memory at the index register. -/
def fillRegisters? (m : Memory) (r : Registers) (x : Nat) : Option Registers :=
  (List.range (x + 1)).foldlM
    (fun r' n => do r'.set? n (← m.read? (r.i + UInt16.ofNat n))) r

/-- The effect of an instruction. -/
def execute? (c : Cpu) (instruction : Instruction) : Option (Except Error Flow × Cpu) :=
  let r := c.registers
  match instruction with
  -- these five look nothing up and add nothing
  | .clearScreen | .jump _ | .setIndex _ | .awaitKey _ | .undefined _ =>
    return c.execute instruction
  | .ret => do
    match ← r.pop? with
    | .ok r => return (.ok .next, { c with registers := r })
    | .error e => return (.error e, c)
  | .call target => do
    match ← r.push? with
    | .ok r => return (.ok .next, { c with registers := { r with pc := target } })
    | .error e => return (.error e, c)
  | .skipIfByte x byte => do return (.ok .next, c.skipIf ((← r.get? x) == byte))
  | .skipUnlessByte x byte => do return (.ok .next, c.skipIf ((← r.get? x) != byte))
  | .skipIfSame x y => do return (.ok .next, c.skipIf ((← r.get? x) == (← r.get? y)))
  | .skipUnlessSame x y => do return (.ok .next, c.skipIf ((← r.get? x) != (← r.get? y)))
  | .jumpFrom addr => do
    let target ← add16 addr (← r.get? 0).toUInt16
    return (.ok .next, { c with registers := { r with pc := target } })
  | .random x mask => do
    let (byte, random) := c.random.take
    let r ← r.set? x (byte &&& mask)
    return (.ok .next, { c with registers := r, random := random })
  | .draw x y height => do return (.ok .next, ← c.draw? x y height)
  | .skipIfKey x => do return (.ok .next, c.skipIf (c.keypad.isPressed (← r.get? x)))
  | .skipUnlessKey x => do return (.ok .next, c.skipIf (!c.keypad.isPressed (← r.get? x)))
  | .readDelay x => do return (.ok .next, { c with registers := ← r.set? x c.timers.delay })
  | .setDelay x => do
    return (.ok .next, { c with timers := { c.timers with delay := ← r.get? x } })
  | .setSound x => do
    return (.ok .next, { c with timers := { c.timers with sound := ← r.get? x } })
  | .addIndex x => do
    return (.ok .next, { c with registers := { r with i := r.i + (← r.get? x).toUInt16 } })
  | .glyph x => do
    let addr ← c.memory.glyphAddress? (← r.get? x)
    return (.ok .next, { c with registers := { r with i := addr } })
  | .decimal x => do
    let memory ← c.memory.writeBytes? r.i (decimalDigits (← r.get? x))
    return (.ok .next, { c with memory := memory })
  | .store x => do
    let memory ← c.memory.writeBytes? r.i (← firstRegisters? r x)
    return (.ok .next, { c with memory := memory })
  | .load x => do return (.ok .next, { c with registers := ← fillRegisters? c.memory r x })
  | .setByte _ _ | .addByte _ _ | .copy _ _ | .or _ _ | .and _ _ | .xor _ _ | .add _ _ | .sub _ _
  | .subFrom _ _ | .shiftRight _ | .shiftLeft _ => do
    return (.ok .next, { c with registers := ← arithmetic? r instruction })

/-- Fetch the word at the program counter, move on and execute it. -/
def step? (c : Cpu) : Option Stepped := do
  let pc := c.registers.pc
  let word ← c.memory.word? pc
  let instruction := Instruction.decode word
  let (outcome, cpu) ← { c with registers := c.registers.skip }.execute? instruction
  return ⟨outcome, cpu, notes pc word instruction⟩

theorem setWithFlag?_eq {x : Nat} (hx : x < 16) (r : Registers) (result : UInt8) (on : Bool) :
    setWithFlag? r x result on = some (setWithFlag r x result on) := by
  have hflag : Registers.flagIndex < 16 := by decide
  simp [setWithFlag?, setWithFlag, Registers.setFlag, Registers.set?_eq hx,
    Registers.set?_eq hflag]

theorem arithmetic?_eq {instruction : Instruction} (h : instruction.WellFormed) (r : Registers) :
    arithmetic? r instruction = some (arithmetic r instruction) := by
  cases instruction with
  | setByte x byte => exact Registers.set?_eq h r byte
  | addByte x byte =>
      have hx : x < 16 := h
      simp [arithmetic?, arithmetic, Registers.get?_eq hx, Registers.set?_eq hx]
  | shiftRight x | shiftLeft x =>
      have hx : x < 16 := h
      simp [arithmetic?, arithmetic, Registers.get?_eq hx, setWithFlag?_eq hx]
  | copy x y | or x y | and x y | xor x y =>
      obtain ⟨hx, hy⟩ := h
      simp [arithmetic?, arithmetic, Registers.get?_eq hx, Registers.get?_eq hy,
        Registers.set?_eq hx]
  | add x y | sub x y | subFrom x y =>
      obtain ⟨hx, hy⟩ := h
      simp [arithmetic?, arithmetic, Registers.get?_eq hx, Registers.get?_eq hy,
        setWithFlag?_eq hx]
  | _ => rfl

/-! ### Sprites and transfers -/

/-- The coordinates of a sprite are far from the bounds of their type. -/
theorem spriteRow?_eq (m : Memory) (i : UInt16) (left top : UInt8) {row : Nat} (hrow : row < 16) :
    spriteRow? m i left.toNat top.toNat row =
      some ((litColumns (m.read (i + UInt16.ofNat row))).map
        fun (col : Nat) => ((left.toNat : Int) + col, (top.toNat : Int) + row)) := by
  -- no coordinate of a sprite is greater than 255 + 14
  have hleft := left.toNat_lt
  have htop := top.toNat_lt
  simp only [spriteRow?, Memory.read?_eq, Option.bind_eq_bind, Option.bind_some]
  refine mapM_eq_some fun col hcol => ?_
  have hcol' : col < 8 := List.mem_range.1 (List.mem_filter.1 hcol).1
  have hx : int32 ((left.toNat : Int) + col) = some ((left.toNat : Int) + col) :=
    int32_eq (by omega)
  have hy : int32 ((top.toNat : Int) + row) = some ((top.toNat : Int) + row) :=
    int32_eq (by omega)
  rw [hx, hy]
  rfl

theorem spritePoints?_eq (m : Memory) (i : UInt16) (left top : UInt8) {height : Nat}
    (hheight : height < 16) :
    spritePoints? m i left.toNat top.toNat height =
      some (spritePoints m i left.toNat top.toNat height) := by
  have hrows := mapM_eq_some (l := List.range height) fun row hrow =>
    spriteRow?_eq m i left top (Nat.lt_trans (List.mem_range.1 hrow) hheight)
  rw [spritePoints?, hrows, spritePoints, List.flatMap_def]
  rfl

theorem inReach_of_mem_spritePoints {m : Memory} {i : UInt16} {left top : UInt8} {height : Nat}
    (hheight : height < 16) {p : Int × Int}
    (h : p ∈ spritePoints m i left.toNat top.toNat height) :
    Screen.InReach p.1 ∧ Screen.InReach p.2 := by
  have hleft := left.toNat_lt
  have htop := top.toNat_lt
  obtain ⟨row, hrow, hp⟩ := List.mem_flatMap.1 h
  obtain ⟨col, hcol, rfl⟩ := List.mem_map.1 hp
  have hrow' : row < height := List.mem_range.1 hrow
  have hcol' : col < 8 := List.mem_range.1 (List.mem_filter.1 hcol).1
  unfold Screen.InReach
  omega

theorem draw?_eq {x y height : Nat} (hx : x < 16) (hy : y < 16) (hheight : height < 16) (c : Cpu) :
    c.draw? x y height = some (c.draw x y height) := by
  have hflag : Registers.flagIndex < 16 := by decide
  have hreach : ∀ p ∈ spritePoints c.memory c.registers.i (c.registers.get x).toNat
      (c.registers.get y).toNat height, Screen.InReach p.1 ∧ Screen.InReach p.2 :=
    fun p hp => inReach_of_mem_spritePoints hheight hp
  simp [draw?, draw, Registers.get?_eq hx, Registers.get?_eq hy, spritePoints?_eq _ _ _ _ hheight,
    c.screen.flipEach?_eq hreach, Registers.set?_eq hflag, Registers.setFlag]

theorem firstRegisters?_eq {x : Nat} (hx : x < 16) (r : Registers) :
    firstRegisters? r x = some (firstRegisters r x) := by
  refine mapM_eq_some fun n hn => Registers.get?_eq ?_ r
  have := List.mem_range.1 hn
  omega

theorem fillRegisters?_eq {x : Nat} (hx : x < 16) (m : Memory) (r : Registers) :
    fillRegisters? m r x = some (fillRegisters m r x) := by
  refine foldlM_eq_some (fun r' n hn => ?_) r
  have hn' : n < 16 := by
    have := List.mem_range.1 hn
    omega
  simp [Memory.read?_eq, Registers.set?_eq hn']

/-! ### Instructions and steps -/

/-- The checks succeed for operands that exist. -/
theorem execute?_eq {c : Cpu} (hc : c.WellFormed) {instruction : Instruction}
    (h : instruction.WellFormed) : c.execute? instruction = some (c.execute instruction) := by
  cases instruction with
  | clearScreen | jump | setIndex | awaitKey | undefined => rfl
  | ret =>
      rcases hpop : c.registers.pop with e | r <;>
        simp [execute?, execute, Registers.pop?_eq hc.sp, hpop]
  | call target =>
      rcases hpush : c.registers.push with e | r <;>
        simp [execute?, execute, Registers.push?_eq, hpush]
  | skipIfSame x y | skipUnlessSame x y =>
      simp [execute?, execute, Registers.get?_eq h.1, Registers.get?_eq h.2]
  | jumpFrom addr =>
      -- a target has twelve bits and a register eight
      have haddr : addr.toNat < 0x1000 := h
      have hsum : addr.toNat + (c.registers.get 0).toUInt16.toNat < 0x10000 := by
        have := (c.registers.get 0).toNat_lt
        rw [UInt8.toNat_toUInt16]
        omega
      simp [execute?, execute, Registers.get?_eq (show 0 < 16 by decide), add16_eq hsum]
  | random x mask =>
      have hx : x < 16 := h
      simp [execute?, execute, Registers.set?_eq hx]
  | draw x y height => simp [execute?, execute, draw?_eq h.1 h.2.1 h.2.2]
  | readDelay x =>
      have hx : x < 16 := h
      simp [execute?, execute, Registers.set?_eq hx]
  | glyph x =>
      have hx : x < 16 := h
      -- the usual place of the glyphs is far below the end of the addresses
      have hplace : c.memory.glyphAddr.toNat + 75 ≤ 65535 := by
        rw [hc.glyphAddr]
        decide
      simp [execute?, execute, Registers.get?_eq hx, Memory.glyphAddress?_eq hplace]
  | decimal x =>
      have hx : x < 16 := h
      simp [execute?, execute, Registers.get?_eq hx, Memory.writeBytes?_eq]
  | store x =>
      have hx : x < 16 := h
      simp [execute?, execute, firstRegisters?_eq hx, Memory.writeBytes?_eq]
  | load x =>
      have hx : x < 16 := h
      simp [execute?, execute, fillRegisters?_eq hx]
  | skipIfByte x byte | skipUnlessByte x byte =>
      have hx : x < 16 := h
      simp [execute?, execute, Registers.get?_eq hx]
  | skipIfKey x | skipUnlessKey x | setDelay x | setSound x | addIndex x =>
      have hx : x < 16 := h
      simp [execute?, execute, Registers.get?_eq hx]
  | setByte | addByte | copy | or | and | xor | add | sub | subFrom | shiftRight | shiftLeft =>
      simp [execute?, execute, arithmetic?_eq h]

/-- **In a well-formed state every check succeeds.** -/
theorem step?_eq {c : Cpu} (h : c.WellFormed) : c.step? = some c.step := by
  have hskip : { c with registers := c.registers.skip }.WellFormed :=
    ⟨h.sp, h.programAddr, h.glyphAddr⟩
  have hlog : (⟨c.step.outcome, c.step.cpu,
      notes c.registers.pc c.currentWord (.decode c.currentWord)⟩ : Stepped) = c.step := by
    rw [← step_log]
  simp only [step?, Memory.word?_eq, Option.bind_eq_bind, Option.bind_some,
    execute?_eq hskip (Instruction.wellFormed_decode _)]
  exact congrArg some hlog

end Cpu

end Chip8
