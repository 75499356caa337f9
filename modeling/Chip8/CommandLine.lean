/-
**The command line.**

The arguments name one program and may set a few options, each at most once.  An option with a
value takes it after an equals sign or as the next argument, which then must not look like an
option itself; `--` ends the options.  Arguments are read from left to right, and the first that is
out of order, or asks for help, decides.

Main definitions:

* `Chip8.Options` — what a user asked for;
* `Chip8.CommandLine.Request` — run with options, show help, or a misuse;
* `Chip8.CommandLine.parse` — the request that arguments make.

Main result: `Chip8.CommandLine.parse_append_of_error`, the first argument that ends the reading
decides.
-/
import Chip8.Log
import Chip8.Text.Decimal

set_option relaxedAutoImplicit false
set_option autoImplicit false

namespace Chip8

/-- What a user asked for. -/
structure Options where
  /-- The file that holds the program. -/
  program : String
  /-- How many instructions a frame has time for. -/
  cycles : Nat := 10
  /-- How many frames a second has. -/
  fps : Nat := 60
  /-- The seed of the random bytes. -/
  seed : Option UInt64 := none
  mute : Bool := false
  frames : Option Nat := none
  log : Option String := none
  /-- What is logged, nothing at all being possible. -/
  logLevel : Option Level := some .info
deriving DecidableEq, Repr

namespace CommandLine

/-- What the arguments ask for. -/
inductive Request where
  | run (options : Options)
  /-- Show how the program is used. -/
  | help
  | misuse
deriving DecidableEq, Repr

/-- The options that take a value. -/
inductive Setting where
  | cycles
  | fps
  | seed
  | frames
  | log
  | logLevel
deriving DecidableEq, Repr

namespace Setting

/-- The option of a name. -/
def ofName? : String → Option Setting
  | "cycles" => some cycles
  | "fps" => some fps
  | "seed" => some seed
  | "frames" => some frames
  | "log" => some log
  | "log-level" => some logLevel
  | _ => none

end Setting

/-! ### Values -/

/-- A number that a machine word has room for. -/
def count? (s : String) : Option Nat :=
  Decimal.natural? 0xffffffffffffffff s.toList

/-- A number up to a bound, where zero may also have a minus sign. -/
def rate? (bound : Nat) (s : String) : Option Nat :=
  match s.toList with
  | '-' :: cs => (Decimal.digits? cs).filter (· = 0)
  | cs => Decimal.natural? bound cs

/-- A level, or `off` for none. -/
def threshold? (s : String) : Option (Option Level) :=
  if s.toUpper = "OFF" then some none else (Level.ofName? s).map some

/-- A path, which must not be empty. -/
def path? (s : String) : Option String :=
  if s = "" then none else some s

/-! ### Arguments -/

/-- What has been read so far. -/
structure Draft where
  program : Option String
  /-- The options that were given a value. -/
  given : List Setting
  /-- Their values, and the defaults of the others. -/
  options : Options
deriving DecidableEq, Repr

namespace Draft

/-- Nothing read yet. -/
def empty : Draft :=
  ⟨none, [], { program := "" }⟩

/-- Take up the program. -/
def addProgram (d : Draft) (s : String) : Option Draft :=
  match d.program with
  | some _ => none
  | none => (path? s).map fun p => { d with program := some p }

/-- Take up the wish to be silent. -/
def addMute (d : Draft) : Option Draft :=
  if d.options.mute then none else some { d with options := { d.options with mute := true } }

/-- The options with a value taken up, if it is one. -/
def assign? (o : Options) (value : String) : Setting → Option Options
  | .cycles => (count? value).map fun n => { o with cycles := n }
  | .fps => (rate? 0xffffffff value).map fun n => { o with fps := n }
  | .seed => (count? value).map fun n => { o with seed := some (UInt64.ofNat n) }
  | .frames => (count? value).map fun n => { o with frames := some n }
  | .log => (path? value).map fun p => { o with log := some p }
  | .logLevel => (threshold? value).map fun l => { o with logLevel := l }

/-- Take up a value for an option that has none yet. -/
def addSetting (d : Draft) (s : Setting) (value : String) : Option Draft :=
  if s ∈ d.given then none
  else (assign? d.options value s).map fun o => { d with given := s :: d.given, options := o }

/-- The request of a complete draft. -/
def request (d : Draft) : Request :=
  match d.program with
  | none => .misuse
  | some p => .run { d.options with program := p }

end Draft

/-- What an argument looks like. -/
inductive Shape where
  /-- A program or a value. -/
  | plain
  | stop
  | short (letter : Char)
  /-- An option with a name, and a value if there is an equals sign. -/
  | long (name : String) (value : Option String)
deriving DecidableEq, Repr

/-- What an argument looks like; a single dash is no option. -/
def shape (arg : String) : Shape :=
  match arg.toList with
  | ['-', '-'] => .stop
  | '-' :: '-' :: cs =>
    match cs.dropWhile (· != '=') with
    | [] => .long (String.ofList cs) none
    | _ :: value => .long (String.ofList (cs.takeWhile (· != '='))) (some (String.ofList value))
  | '-' :: c :: _ => .short c
  | _ => .plain

/-- What the next argument is taken for. -/
inductive Expecting where
  | argument
  | value (setting : Setting)
  /-- The program, the options being over. -/
  | program
deriving DecidableEq, Repr

/-- How far the arguments have been read. -/
structure Reader where
  draft : Draft
  expecting : Expecting
deriving DecidableEq, Repr

namespace Reader

/-- Nothing read yet. -/
def start : Reader :=
  ⟨.empty, .argument⟩

/-- Go on with a draft, unless there is none. -/
def proceed (expecting : Expecting) (draft : Option Draft) : Except Request Reader :=
  match draft with
  | some d => .ok ⟨d, expecting⟩
  | none => .error .misuse

/-- Take up an option with a name. -/
def takeLong (d : Draft) (name : String) (value : Option String) : Except Request Reader :=
  if name = "help" ∧ value = none then .error .help
  else if name = "mute" ∧ value = none then proceed .argument d.addMute
  else
    match Setting.ofName? name, value with
    | none, _ => .error .misuse
    | some s, some v => proceed .argument (d.addSetting s v)
    | some s, none => .ok ⟨d, .value s⟩

/-- Take up an argument, or end with a request that leaves the rest unread. -/
def take (r : Reader) (arg : String) : Except Request Reader :=
  match r.expecting with
  | .program => proceed .program (r.draft.addProgram arg)
  | .value s =>
    if shape arg = .plain then proceed .argument (r.draft.addSetting s arg) else .error .misuse
  | .argument =>
    match shape arg with
    | .plain => proceed .argument (r.draft.addProgram arg)
    | .stop => .ok ⟨r.draft, .program⟩
    | .short letter => .error (if letter = 'h' then .help else .misuse)
    | .long name value => takeLong r.draft name value

/-- The request when there are no more arguments. -/
def finish (r : Reader) : Request :=
  match r.expecting with
  | .value _ => .misuse
  | .argument | .program => r.draft.request

end Reader

/-- The request that arguments make. -/
def parse (args : List String) : Request :=
  match args.foldlM Reader.take .start with
  | .ok r => r.finish
  | .error request => request

/-- Whatever follows an argument that ends the reading is not read. -/
theorem parse_append_of_error {args : List String} {request : Request}
    (h : args.foldlM Reader.take .start = .error request) (rest : List String) :
    parse (args ++ rest) = request := by
  rw [parse, List.foldlM_append, h]
  rfl

end CommandLine

end Chip8
