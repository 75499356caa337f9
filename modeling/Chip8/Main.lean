/-
**The program.**

Reads its command line, a program and the keys, and shows the machine on the terminal.  All it does
itself is to read and to write; what is read means and what is written is settled elsewhere.
-/
import Chip8.Device.Sound
import Chip8.Session
import Chip8.Terminal.Ansi

set_option relaxedAutoImplicit false
set_option autoImplicit false

namespace Chip8.Program

/-- How the program is used. -/
def usage : String :=
  "Run a CHIP-8 program in the terminal\n\n" ++
  "Usage: chip8 [OPTIONS] <ROM>\n\n" ++
  "Options:\n" ++
  "      --cycles <CYCLES>        instructions in a frame [default: 10]\n" ++
  "      --fps <FPS>              frames in a second [default: 60]\n" ++
  "      --seed <SEED>            seed of the random bytes\n" ++
  "      --mute                   make no sound\n" ++
  "      --frames <FRAMES>        stop after so many frames\n" ++
  "      --log <LOG>              write a log to this file\n" ++
  "      --log-level <LOG_LEVEL>  what to log [default: info]\n" ++
  "  -h, --help                   show this help\n"

/-- The cause behind a failure, if it has one.  The system's numbers come with either sign. -/
def causeOf? (e : IO.Error) : Option SystemCause :=
  match e with
  | .noFileOrDirectory _ n _ | .inappropriateType _ n _ | .permissionDenied _ n _ |
    .invalidArgument _ n _ | .resourceBusy n _ => SystemCause.ofCode? (min n (-n)).toNat
  | _ => none

/-- The complaint about a file that could not be opened or written. -/
def complaintOf (e : IO.Error) : String :=
  match causeOf? e with
  | some cause => Session.complain (IoFailure.system cause).report
  | none => Session.complain (toString e)

/-- Collect what is typed, for good. -/
partial def listen (typed : IO.Ref (List UInt8)) : IO Unit := do
  let stdin ← IO.getStdin
  let bytes ← stdin.read 1
  if bytes.isEmpty then return
  typed.modify fun before => before ++ bytes.toList
  listen typed

/-- Hours, minutes and seconds since a moment. -/
def timeSince (start : Nat) : IO String := do
  let now ← IO.monoNanosNow
  let seconds := (now - start) / 1000000000
  let two (n : Nat) : String := String.ofList ((Nat.toDigits 10 n).leftpad 2 '0')
  return two (seconds / 3600 % 24) ++ ":" ++ two (seconds / 60 % 60) ++ ":" ++ two (seconds % 60)

/-- Append records to the log, if there is one. -/
def writeLog (log : Option IO.FS.Handle) (level : Option Level) (start : Nat)
    (records : List Record) : IO Unit := do
  match log with
  | none => return
  | some handle =>
    let time ← timeSince start
    for r in records.filter (Record.shown level) do
      handle.putStr (LogFile.write time r)
    handle.flush

/-- A machine on the terminal, paced by the frame. -/
abbrev Seat : Type :=
  Console Panel Tone FrameCount Keyboard

/-- What the seat shows on the terminal. -/
def surfaceOf (seat : Seat) (before : Surface) : Surface :=
  (seat.machine.display.map Panel.surface).getD before

/-- Write out what a frame brought: records, beeps and the cells that changed. -/
def present (log : Option IO.FS.Handle) (o : Options) (start : Nat) (before : Surface)
    (seat : Seat) : IO Surface := do
  writeLog log o.logLevel start seat.machine.records
  let stdout ← IO.getStdout
  if !o.mute ∧ .beep ∈ seat.machine.calls then
    stdout.putStr (String.ofList [Char.ofNat 7])
  let after := surfaceOf seat before
  stdout.putStr (Ansi.changes before after)
  stdout.flush
  return after

/-- The seat with an empty journal. -/
def forget (seat : Seat) : Seat :=
  { seat with machine := { seat.machine with journal := #[] } }

/-- Play frame after frame. -/
partial def loop (log : Option IO.FS.Handle) (o : Options) (start : Nat)
    (typed : IO.Ref (List UInt8)) (pacer : Pacer) (before : Surface) (frames : Nat)
    (seat : Seat) : IO Ending := do
  if o.frames = some frames then
    let _ ← present log o start before { seat with machine := seat.machine.stop }
    return .completed
  let now ← IO.monoNanosNow
  let (pause, pacer) := pacer.wait now
  IO.sleep (UInt32.ofNat (pause / 1000000))
  let bytes ← typed.modifyGet fun bytes => (bytes, [])
  let (ending, seat) := { seat with keys := seat.keys.type bytes }.frame frames
  let before ← present log o start before seat
  match ending with
  | .completed => loop log o start typed pacer before (frames + 1) (forget seat)
  | ending => return ending

/-- Run a machine that holds a program. -/
def play (log : Option IO.FS.Handle) (o : Options) (start : Nat) (m : Machine Panel Tone) :
    IO Ending := do
  let stdout ← IO.getStdout
  let surface := Surface.new 80 40
  stdout.putStr Ansi.enter
  stdout.flush
  let typed ← IO.mkRef []
  let _ ← IO.asTask (listen typed)
  let panel := Panel.attach Screen.width Screen.height surface
  let now ← IO.monoNanosNow
  let ending ←
    match (m.attach panel).start with
    | (.error e, _) => pure (Ending.failed e)
    | (.ok (), m) => do
      writeLog log o.logLevel start m.records
      let seat : Seat := forget ⟨m, ⟨0⟩, Keyboard.idle.listen⟩
      loop log o start typed (.new o.fps now) panel.surface 0 seat
  stdout.putStr Ansi.leave
  stdout.flush
  return ending

/-- Open the log that the options ask for. -/
def openLog (o : Options) : IO (Option IO.FS.Handle) :=
  match o.log with
  | none => return none
  | some path => return some (← IO.FS.Handle.mk path .append)

/-- What opening a path for reading gives. -/
def openProgram (path : String) : IO Entry := do
  try
    let bytes ← IO.FS.readBinFile path
    return .file bytes.toList
  catch e =>
    match causeOf? e with
    | some .isADirectory => return .directory
    | some cause => return .missing cause
    | none => throw e

/-- A session with options that make sense. -/
def session (o : Options) : IO UInt32 := do
  let start ← IO.monoNanosNow
  let noise ← IO.getRandomBytes 8
  let entropy := noise.toList.foldl (fun n b => n * 256 + b.toUInt64) 0
  let log ← openLog o
  let m : Machine Panel Tone := Session.fresh o ⟨false⟩ entropy
  writeLog log o.logLevel start m.records
  let program ← openProgram o.program
  let (prepared, records) := Session.prepare o { m with journal := #[] } program
  writeLog log o.logLevel start records
  match prepared with
  | .error complaint =>
    (← IO.getStderr).putStr complaint
    return 1
  | .ok m =>
    match (← play log o start { m with journal := #[] }).result with
    | .ok () => return 0
    | .error e =>
      (← IO.getStderr).putStr (Session.complain e.report)
      return 1

end Chip8.Program

/-- The program. -/
def main (args : List String) : IO UInt32 := do
  match Chip8.CommandLine.parse args with
  | .help =>
    (← IO.getStdout).putStr Chip8.Program.usage
    return 0
  | .misuse =>
    (← IO.getStderr).putStr Chip8.Program.usage
    return UInt32.ofNat Chip8.Session.misuseCode
  | .run o =>
    try Chip8.Program.session o
    catch e =>
      (← IO.getStderr).putStr (Chip8.Program.complaintOf e)
      return 1
