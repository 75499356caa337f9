/-
**What can go wrong.**

Three faults end a program for good: a word outside the instruction set, a call past the last stack
slot and a return from the outermost level.  The other errors belong to the machine's surroundings:
it was started without a display or after a fault, or a device failed.

Main definitions:

* `Chip8.SystemCause`, `Chip8.IoFailure` — why a read, a write or a painting failed;
* `Chip8.Error` — the errors of the machine;
* `Chip8.Error.message` — the sentence that tells a user what happened;
* `Chip8.Error.isFatal` — the three faults that halt the machine;
* `Chip8.Error.report` — the structured form that the program ends with.
-/
import Chip8.Text.Hex
import Chip8.Text.Quoted

set_option relaxedAutoImplicit false
set_option autoImplicit false

namespace Chip8

/-- Why the system refused to open, make or read a file. -/
inductive SystemCause where
  | notFound
  /-- A file stands where a directory is needed. -/
  | notADirectory
  /-- A directory stands where a file is needed. -/
  | isADirectory
  /-- A name or a path is longer than the system allows. -/
  | nameTooLong
  /-- More links would have to be followed than the system allows. -/
  | tooManyLinks
  /-- Nobody may make a file there. -/
  | permissionDenied
  /-- The file is a program that is running. -/
  | fileBusy
deriving DecidableEq, Repr

namespace SystemCause

/-- The number that the system gives to the cause. -/
def code : SystemCause → Nat
  | notFound => 2
  | notADirectory => 20
  | isADirectory => 21
  | nameTooLong => 36
  | tooManyLinks => 40
  | permissionDenied => 13
  | fileBusy => 26

/-- All causes. -/
def all : List SystemCause :=
  [notFound, notADirectory, isADirectory, nameTooLong, tooManyLinks, permissionDenied, fileBusy]

/-- The cause of a number. -/
def ofCode? (n : Nat) : Option SystemCause :=
  all.find? fun c => c.code == n

/-- The name of the cause. -/
def kind : SystemCause → String
  | notFound => "NotFound"
  | notADirectory => "NotADirectory"
  | isADirectory => "IsADirectory"
  | nameTooLong => "InvalidFilename"
  | tooManyLinks => "FilesystemLoop"
  | permissionDenied => "PermissionDenied"
  | fileBusy => "ExecutableFileBusy"

/-- The system's own words. -/
def text : SystemCause → String
  | notFound => "No such file or directory"
  | notADirectory => "Not a directory"
  | isADirectory => "Is a directory"
  | nameTooLong => "File name too long"
  | tooManyLinks => "Too many levels of symbolic links"
  | permissionDenied => "Permission denied"
  | fileBusy => "Text file busy"

/-- The number of a cause tells the cause. -/
theorem ofCode?_code (c : SystemCause) : ofCode? c.code = some c := by
  cases c <;> rfl

end SystemCause

/-- Why an exchange with the outside failed. -/
inductive IoFailure where
  | system (cause : SystemCause)
  /-- What was handed over does not fit. -/
  | invalidInput (message : String)
  /-- Anything else, in the words of the device. -/
  | other (message : String)
deriving DecidableEq, Repr

namespace IoFailure

/-- The sentence that tells what failed. -/
def message : IoFailure → String
  | system c => c.text ++ " (os error " ++ c.code.repr ++ ")"
  | invalidInput m => m
  | other m => m

/-- The structured form of the failure. -/
def report : IoFailure → String
  | system c =>
    "Os \x7b code: " ++ c.code.repr ++ ", kind: " ++ c.kind ++ ", message: " ++
      Quoted.text c.text ++ " \x7d"
  | invalidInput m => "Custom \x7b kind: InvalidInput, error: " ++ Quoted.text m ++ " \x7d"
  | other m => "Custom \x7b kind: Other, error: " ++ Quoted.text m ++ " \x7d"

end IoFailure

/-- The errors of the machine. -/
inductive Error where
  /-- The word is no instruction. -/
  | unknownOpcode (word : UInt16)
  /-- A call found all stack slots taken. -/
  | stackOverflow (pc : UInt16)
  /-- A return found the stack empty. -/
  | stackUnderflow (pc : UInt16)
  /-- The machine was started with nothing to show its picture on. -/
  | noDisplay
  /-- The machine was started after a fault and before a reset. -/
  | halted (word : UInt16)
  /-- Reading a program, polling the keys or painting failed. -/
  | io (cause : IoFailure)
  /-- The sound device failed, in its own words. -/
  | audio (message : String)
deriving DecidableEq, Repr

namespace Error

/-- The sentence that tells what happened. -/
def message : Error → String
  | unknownOpcode w => "unknown opcode " ++ Hex.literal 4 w.toNat ++ ", terminating"
  | stackOverflow pc => "call stack overflow at pc " ++ Hex.literal 3 pc.toNat
  | stackUnderflow pc => "return with empty call stack at pc " ++ Hex.literal 3 pc.toNat
  | noDisplay => "a display must be attached before the machine can start"
  | halted w =>
    "machine halted after fatal opcode " ++ Hex.literal 4 w.toNat ++ "; reset before running again"
  | io c => "io error: " ++ c.message
  | audio m => "audio error: " ++ m

/-- The faults that no later instruction can follow. -/
def isFatal : Error → Bool
  | unknownOpcode _ | stackOverflow _ | stackUnderflow _ => true
  | noDisplay | halted _ | io _ | audio _ => false

/-- The structured form of the error, numbers in decimal. -/
def report : Error → String
  | unknownOpcode w => "UnknownOpcode \x7b opcode: " ++ w.toNat.repr ++ " \x7d"
  | stackOverflow pc => "StackOverflow \x7b pc: " ++ pc.toNat.repr ++ " \x7d"
  | stackUnderflow pc => "StackUnderflow \x7b pc: " ++ pc.toNat.repr ++ " \x7d"
  | noDisplay => "NoDisplay"
  | halted w => "Halted \x7b opcode: " ++ w.toNat.repr ++ " \x7d"
  | io c => "Io(" ++ c.report ++ ")"
  | audio m => "Audio(" ++ Quoted.text m ++ ")"

end Error

end Chip8
