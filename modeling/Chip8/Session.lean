/-
**A session.**

What the program does once it knows its options: open the log, reset a machine, read the program
into it, take over the terminal, run, and give the terminal back.  The first failure ends it.

Main definitions:

* `Chip8.Session.Outcome` — what remains of a session;
* `Chip8.Session.fresh`, `Chip8.Session.prepare` — a machine without and with the program in it;
* `Chip8.Session.play` — the run on a terminal;
* `Chip8.Session.run`, `Chip8.Session.runIn` — the whole of it, with a file and in a folder.
-/
import Chip8.CommandLine
import Chip8.Console
import Chip8.Device.Clock
import Chip8.Folder
import Chip8.LogFile
import Chip8.Terminal.Keyboard
import Chip8.Terminal.Panel

set_option relaxedAutoImplicit false
set_option autoImplicit false

namespace Chip8.Session

/-- What remains of a session. -/
structure Outcome where
  /-- The complaint that it ended with, if it failed. -/
  complaint : Option String
  /-- What was noted, in order. -/
  records : List Record
  /-- The terminal, if the session got as far as taking it over. -/
  surface : Option Surface

namespace Outcome

/-- The exit code: zero for success and one for failure. -/
def exitCode (o : Outcome) : Nat :=
  if o.complaint.isSome then 1 else 0

end Outcome

/-- The exit code of a misuse of the command line. -/
def misuseCode : Nat :=
  2

/-- A complaint as it is printed. -/
def complain (report : String) : String :=
  "Error: " ++ report ++ "\n"

/-- The settings that options ask for. -/
def configOf (o : Options) : Config :=
  { cyclesPerFrame := o.cycles, frameRate := o.fps, seed := o.seed }

/-- The machine of a session before it has a program. -/
def fresh {δ σ : Type} (o : Options) (sound : σ) (entropy : UInt64) : Machine δ σ :=
  (Machine.new sound (configOf o) entropy).reset

/-- A machine with the program in it, or the complaint about the file; and what was noted. -/
def prepare {δ σ : Type} (o : Options) (m : Machine δ σ) (program : Entry) :
    Except String (Machine δ σ) × List Record :=
  match program.source with
  | .error cause => (.error (complain (IoFailure.system cause).report), m.records)
  | .ok source =>
    match m.loadFrom source with
    | (.error e, m) => (.error (complain e.report), m.records)
    | (.ok count, m) =>
      let m := m.note (.loaded count o.program)
      (.ok m, m.records)

/-- Run a machine on a terminal. -/
def play {σ : Type} [SoundDevice σ] (frames : Option Nat) (m : Machine Panel σ)
    (keyboard : Keyboard) (surface : Surface) : Outcome :=
  let panel := Panel.attach Screen.width Screen.height surface
  let console : Console Panel σ FrameCount Keyboard := ⟨m.attach panel, ⟨0⟩, keyboard.listen⟩
  let (ending, console) := console.run frames
  let complaint :=
    match ending.result with
    | .ok () => none
    | .error e => some (complain e.report)
  ⟨complaint, console.machine.records, console.machine.display.map Panel.detach⟩

/-- A session with a machine and the file that holds the program, on a terminal. -/
def run {σ : Type} [SoundDevice σ] (o : Options) (m : Machine Panel σ) (program : Entry)
    (keyboard : Keyboard) (surface : Surface) : Outcome :=
  match prepare o m program with
  | (.error complaint, records) => ⟨some complaint, records, none⟩
  | (.ok m, _) => play o.frames m keyboard surface

/-- The log file of a folder with the records that the options ask for, at a time. -/
def logged (folder : Folder) (log : Place) (time : String) (o : Options) (records : List Record) :
    Folder :=
  folder.append log (LogFile.writeAll time (records.filter (Record.shown o.logLevel)))

/-- A session in a folder, and the folder afterwards.  The log is opened first, and what the fresh
machine has to say is in it when the program is read, which may be that very file. -/
def runIn {σ : Type} [SoundDevice σ] (folder : Folder) (time : String) (o : Options) (sound : σ)
    (entropy : UInt64) (keyboard : Keyboard) (surface : Surface) : Outcome × Folder :=
  let m : Machine Panel σ := fresh o sound entropy
  match o.log with
  | none => (run o m (folder.entry o.program) keyboard surface, folder)
  | some path =>
    match folder.target path with
    | .error cause => (⟨some (complain (IoFailure.system cause).report), [], none⟩, folder)
    | .ok log =>
      let program := (logged folder log time o m.records).entry o.program
      let outcome := run o m program keyboard surface
      (outcome, logged folder log time o outcome.records)

end Chip8.Session
