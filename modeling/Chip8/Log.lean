/-
**The log.**

What the machine and its surroundings have to say about their work.  A record is kept as data; its
text is made when it is written out, and a threshold then decides which records are shown.

Main definitions:

* `Chip8.Level` — how severe a record is;
* `Chip8.Record` — the records, with `Chip8.Record.level` and `Chip8.Record.message`;
* `Chip8.Record.line` — level and message, as they are written;
* `Chip8.Record.shown` — whether a threshold lets a record through.
-/
import Chip8.Error
import Chip8.Instruction

set_option relaxedAutoImplicit false
set_option autoImplicit false

namespace Chip8

/-- How severe a record is. -/
inductive Level where
  | error
  | warn
  | info
  | debug
  | trace
deriving DecidableEq, Repr

namespace Level

/-- The levels counted from the most severe. -/
def rank : Level → Nat
  | error => 1
  | warn => 2
  | info => 3
  | debug => 4
  | trace => 5

/-- The name of a level in capitals. -/
def name : Level → String
  | error => "ERROR"
  | warn => "WARN"
  | info => "INFO"
  | debug => "DEBUG"
  | trace => "TRACE"

/-- All levels, the most severe first. -/
def all : List Level :=
  [error, warn, info, debug, trace]

/-- The level of a name, in capitals or not. -/
def ofName? (s : String) : Option Level :=
  all.find? fun l => l.name == s.toUpper

end Level

/-- One thing worth noting. -/
inductive Record where
  /-- An instruction is about to be executed. -/
  | executing (pc word : UInt16) (instruction : Instruction)
  /-- The instruction turned out to be no instruction. -/
  | ignored (word : UInt16)
  /-- A fault stops the machine for good. -/
  | halting (fault : Error)
  /-- The machine was put back to its initial state. -/
  | wasReset
  | started (pc : UInt16)
  | stopped
  /-- A program waits for a key. -/
  | waiting (register : Nat)
  | resuming (key : UInt8) (register : Nat)
  | quitting (frames : Nat)
  /-- A character was typed that stands for no key of the pad. -/
  | unmapped (c : Char)
  /-- A key was typed that is no character. -/
  | unknownKey
  | loaded (count : Nat) (path : String)
deriving DecidableEq, Repr

namespace Record

/-- How severe a record is. -/
def level : Record → Level
  | executing _ _ _ => .trace
  | ignored _ | unmapped _ | unknownKey => .warn
  | halting _ => .error
  | wasReset | started _ | stopped | waiting _ | resuming _ _ => .debug
  | quitting _ | loaded _ _ => .info

/-- The text of a record. -/
def message : Record → String
  | executing pc word instruction =>
    Hex.literal 3 pc.toNat ++ ": " ++ String.ofList (Hex.padded 4 word.toNat) ++ " " ++
      instruction.mnemonic
  | ignored word => "ignoring undefined opcode " ++ Hex.literal 4 word.toNat
  | halting fault => "halting: " ++ fault.message
  | wasReset => "machine reset"
  | started pc => "machine started at pc " ++ Hex.literal 3 pc.toNat
  | stopped => "machine stopped"
  | waiting register => "waiting for a key for " ++ Instruction.register register
  | resuming key register =>
    "key " ++ Hex.literal 1 key.toNat ++ " -> " ++ Instruction.register register ++ ", resuming"
  | quitting frames => "quit requested after " ++ frames.repr ++ " frames"
  | unmapped c => "can't map " ++ Quoted.char c ++ " to a CHIP-8 key"
  | unknownKey => "unknown key event received"
  | loaded count path => "loaded " ++ count.repr ++ " bytes from " ++ path

/-- Level and message, as they are written. -/
def line (r : Record) : String :=
  r.level.name ++ " " ++ r.message

/-- A threshold shows records at its level or more severe; without one nothing is shown. -/
def shown (threshold : Option Level) (r : Record) : Bool :=
  match threshold with
  | some t => r.level.rank ≤ t.rank
  | none => false

end Record

/-- The lines that a threshold lets through. -/
def logLines (threshold : Option Level) (records : List Record) : List String :=
  (records.filter (Record.shown threshold)).map Record.line

end Chip8
