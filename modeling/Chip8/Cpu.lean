/-
**The processor.**

Memory, registers, screen, timers, keypad and a stream of random bytes, and the execution of one
instruction on them.  A step fetches the word at the program counter, moves the counter on and
executes the word.  It cannot see a display: it tells its caller when the screen was cleared or a
key has to be waited for, and it remembers that something was drawn.

Main definitions:

* `Chip8.Cpu` — the state;
* `Chip8.Flow` — what the caller of a step has to know;
* `Chip8.Cpu.execute` — the effect of an instruction;
* `Chip8.Cpu.step` — fetch, move on, execute;
* `Chip8.Cpu.spritePoints` — the points that a sprite covers.

Main result: `Chip8.Cpu.step_log`, a step notes what it executes before anything else.
-/
import Chip8.Registers
import Chip8.Screen
import Chip8.Timers
import Chip8.Keypad
import Chip8.Random.Stream
import Chip8.Log

set_option relaxedAutoImplicit false
set_option autoImplicit false

namespace Chip8

/-- The state of the processor and all it works on. -/
structure Cpu where
  memory : Memory
  /-- The register file and the call stack. -/
  registers : Registers
  screen : Screen
  timers : Timers
  keypad : Keypad
  random : RandomStream
  /-- Whether something was drawn since the picture was last shown. -/
  drawPending : Bool
deriving DecidableEq

/-- What the caller of a step has to know. -/
inductive Flow where
  | next
  | cleared
  /-- The program waits for a key, which goes to a register. -/
  | awaitKey (register : Nat)
deriving DecidableEq, Repr

/-- What a step comes to. -/
structure Stepped where
  /-- The flow, or the fault. -/
  outcome : Except Error Flow
  /-- The state afterwards. -/
  cpu : Cpu
  /-- What was noted, in order. -/
  log : List Record

namespace Cpu

/-- A new processor, taking its random bytes from the given stream. -/
def ofStream (random : RandomStream) : Cpu :=
  ⟨.new, .new, .blank, .new, .new, random, false⟩

/-- A new processor with a seed for its random bytes. -/
def new (seed : UInt64) : Cpu :=
  ofStream (.new seed)

/-- Everything back to its initial state, but for the places of programs and glyphs and for the
random bytes, which go on where they were. -/
def reset (c : Cpu) : Cpu :=
  ⟨c.memory.reset, .new, .blank, .new, .new, c.random, false⟩

/-- Put a program into memory. -/
def load (c : Cpu) (program : List UInt8) : Cpu :=
  { c with memory := c.memory.load program }

/-- Put the program that a source holds into memory. -/
def loadFrom (c : Cpu) (source : ByteSource) : Except Error Nat × Cpu :=
  let (result, memory) := c.memory.loadFrom source
  (result.mapError .io, { c with memory := memory })

/-- The word at the program counter. -/
def currentWord (c : Cpu) : UInt16 :=
  c.memory.word c.registers.pc

/-- Ask whether something is to be shown, and forget it. -/
def takeDrawPending (c : Cpu) : Bool × Cpu :=
  (c.drawPending, { c with drawPending := false })

/-- One step of the timers. -/
def tickTimers (c : Cpu) : Bool × Cpu :=
  (c.timers.tick.1, { c with timers := c.timers.tick.2 })

/-- Pass over the next instruction if the condition holds. -/
def skipIf (c : Cpu) (condition : Bool) : Cpu :=
  if condition then { c with registers := c.registers.skip } else c

/-! ### Arithmetic -/

/-- Put a result into a register and then a bit into the flag, which wins if both are the same. -/
def setWithFlag (r : Registers) (x : Nat) (result : UInt8) (on : Bool) : Registers :=
  (r.set x result).setFlag on

/-- The register file after an instruction of the arithmetic family. -/
def arithmetic (r : Registers) : Instruction → Registers
  | .setByte x byte => r.set x byte
  | .addByte x byte => r.set x (r.get x + byte)
  | .copy x y => r.set x (r.get y)
  | .or x y => r.set x (r.get x ||| r.get y)
  | .and x y => r.set x (r.get x &&& r.get y)
  | .xor x y => r.set x (r.get x ^^^ r.get y)
  | .add x y => setWithFlag r x (r.get x + r.get y) (255 < (r.get x).toNat + (r.get y).toNat)
  | .sub x y => setWithFlag r x (r.get x - r.get y) (r.get y < r.get x)
  | .subFrom x y => setWithFlag r x (r.get y - r.get x) (r.get x < r.get y)
  | .shiftRight x => setWithFlag r x (r.get x >>> 1) (r.get x &&& 1 == 1)
  | .shiftLeft x => setWithFlag r x (r.get x <<< 1) (r.get x >>> 7 == 1)
  | _ => r

/-! ### Sprites -/

/-- The columns of a row of eight in which a byte has its bit set, the highest bit on the left. -/
def litColumns (byte : UInt8) : List Nat :=
  (List.range 8).filter fun col => byte.toNat.testBit (7 - col)

/-- The points that a sprite covers: row after row, one byte of memory each from the index register
on. -/
def spritePoints (m : Memory) (i : UInt16) (left top : Int) (height : Nat) : List (Int × Int) :=
  (List.range height).flatMap fun row =>
    (litColumns (m.read (i + UInt16.ofNat row))).map fun (col : Nat) => (left + col, top + row)

/-- Flip the points of a sprite; the flag tells whether a lit cell was put out. -/
def draw (c : Cpu) (x y height : Nat) : Cpu :=
  let r := c.registers
  let points := spritePoints c.memory r.i (r.get x).toNat (r.get y).toNat height
  let (erased, screen) := c.screen.flipEach points
  { c with screen := screen, registers := r.setFlag (erased.any id), drawPending := true }

/-! ### Memory transfers -/

/-- The registers `V0` to `Vx`. -/
def firstRegisters (r : Registers) (x : Nat) : List UInt8 :=
  (List.range (x + 1)).map r.get

/-- Fill the registers `V0` to `Vx` from memory at the index register. -/
def fillRegisters (m : Memory) (r : Registers) (x : Nat) : Registers :=
  (List.range (x + 1)).foldl (fun r' n => r'.set n (m.read (r.i + UInt16.ofNat n))) r

/-- The three decimal digits of a byte. -/
def decimalDigits (n : UInt8) : List UInt8 :=
  [n / 100, n / 10 % 10, n % 10]

/-! ### Execution -/

/-- The effect of an instruction, the program counter being past it already. -/
def execute (c : Cpu) (instruction : Instruction) : Except Error Flow × Cpu :=
  let r := c.registers
  match instruction with
  | .clearScreen => (.ok .cleared, { c with screen := .blank })
  | .ret =>
    match r.pop with
    | .ok r => (.ok .next, { c with registers := r })
    | .error e => (.error e, c)
  | .jump target => (.ok .next, { c with registers := { r with pc := target } })
  | .call target =>
    match r.push with
    | .ok r => (.ok .next, { c with registers := { r with pc := target } })
    | .error e => (.error e, c)
  | .skipIfByte x byte => (.ok .next, c.skipIf (r.get x == byte))
  | .skipUnlessByte x byte => (.ok .next, c.skipIf (r.get x != byte))
  | .skipIfSame x y => (.ok .next, c.skipIf (r.get x == r.get y))
  | .skipUnlessSame x y => (.ok .next, c.skipIf (r.get x != r.get y))
  | .setIndex addr => (.ok .next, { c with registers := { r with i := addr } })
  | .jumpFrom addr =>
    (.ok .next, { c with registers := { r with pc := addr + (r.get 0).toUInt16 } })
  | .random x mask =>
    let (byte, random) := c.random.take
    (.ok .next, { c with registers := r.set x (byte &&& mask), random := random })
  | .draw x y height => (.ok .next, c.draw x y height)
  | .skipIfKey x => (.ok .next, c.skipIf (c.keypad.isPressed (r.get x)))
  | .skipUnlessKey x => (.ok .next, c.skipIf (!c.keypad.isPressed (r.get x)))
  | .readDelay x => (.ok .next, { c with registers := r.set x c.timers.delay })
  | .awaitKey x => (.ok (.awaitKey x), c)
  | .setDelay x => (.ok .next, { c with timers := { c.timers with delay := r.get x } })
  | .setSound x => (.ok .next, { c with timers := { c.timers with sound := r.get x } })
  | .addIndex x => (.ok .next, { c with registers := { r with i := r.i + (r.get x).toUInt16 } })
  | .glyph x =>
    (.ok .next, { c with registers := { r with i := c.memory.glyphAddress (r.get x) } })
  | .decimal x =>
    (.ok .next, { c with memory := c.memory.writeBytes r.i (decimalDigits (r.get x)) })
  | .store x => (.ok .next, { c with memory := c.memory.writeBytes r.i (firstRegisters r x) })
  | .load x => (.ok .next, { c with registers := fillRegisters c.memory r x })
  | .undefined _ => (.ok .next, c)
  | .setByte _ _ | .addByte _ _ | .copy _ _ | .or _ _ | .and _ _ | .xor _ _ | .add _ _ | .sub _ _
  | .subFrom _ _ | .shiftRight _ | .shiftLeft _ =>
    (.ok .next, { c with registers := arithmetic r instruction })

/-- What is noted about the execution of an instruction. -/
def notes (pc word : UInt16) (instruction : Instruction) : List Record :=
  match instruction with
  | .undefined w => [.executing pc word instruction, .ignored w]
  | _ => [.executing pc word instruction]

/-- Fetch the word at the program counter, move on and execute it.  What is noted is noted after
moving on, so the place of the word is two bytes back. -/
def step (c : Cpu) : Stepped :=
  let word := c.currentWord
  let registers := c.registers.skip
  let instruction := Instruction.decode word
  let (outcome, cpu) := { c with registers := registers }.execute instruction
  ⟨outcome, cpu, notes (registers.pc - 2) word instruction⟩

/-! ### Laws -/

theorem step_outcome (c : Cpu) :
    c.step.outcome =
      ({ c with registers := c.registers.skip }.execute (.decode c.currentWord)).1 := rfl

theorem step_cpu (c : Cpu) :
    c.step.cpu = ({ c with registers := c.registers.skip }.execute (.decode c.currentWord)).2 := rfl

/-- A step notes what it executes, and where that was found: two bytes back from the program counter
after moving on, even where that wraps. -/
theorem step_log (c : Cpu) :
    c.step.log = notes c.registers.pc c.currentWord (.decode c.currentWord) := by
  have hpc : c.registers.skip.pc - 2 = c.registers.pc := UInt16.add_sub_cancel c.registers.pc 2
  rw [← hpc]
  rfl

end Cpu

end Chip8
