/-
**Log files.**

A log file has a line for each record: a time, the level in brackets and the message.  Debugging
and tracing records also tell their origin, before the message.

Main definitions:

* `Chip8.LogFile.origin` — what a line tells about the origin of a record;
* `Chip8.LogFile.write` — the line of a record at a time;
* `Chip8.LogFile.read?` — level and message of a line, if it is one of a log;
* `Chip8.LogFile.entries` — level and message of each line of a file.
-/
import Chip8.Log

set_option relaxedAutoImplicit false
set_option autoImplicit false

namespace Chip8.LogFile

/-- The origin of records at a level: the thread, of which there is only one, and the part of the
program.  Only the machine debugs and only its processor traces. -/
def origin : Level → String
  | .debug => "(1) chip8vm::machine: "
  | .trace => "(1) chip8vm::interpreter: "
  | .error | .warn | .info => ""

/-- The line of a record at a time such as `12:34:56`. -/
def write (time : String) (r : Record) : String :=
  time ++ " [" ++ r.level.name ++ "] " ++ origin r.level ++ r.message ++ "\n"

/-- The lines of records, as bytes. -/
def writeAll (time : String) (records : List Record) : List UInt8 :=
  records.flatMap fun r => (write time r).toUTF8.toList

/-- Whether characters have the form of a time. -/
def isTime : List Char → Bool
  | [h, h', ':', m, m', ':', s, s'] => [h, h', m, m', s, s'].all Char.isDigit
  | _ => false

/-- Level and message of a line, if it is one of a log. -/
def read? (line : List Char) : Option String :=
  match isTime (line.take 8), line.drop 8 with
  | true, ' ' :: '[' :: rest =>
    match Level.all.find? fun l => l.name.toList == rest.takeWhile (· != ']'),
        rest.dropWhile (· != ']') with
    | some l, ']' :: ' ' :: rest =>
      let source := (origin l).toList
      let message := if source.isPrefixOf rest then rest.drop source.length else rest
      some (l.name ++ " " ++ String.ofList message)
    | _, _ => none
  | _, _ => none

/-- Bytes cut at each line end. -/
def lines (bytes : List UInt8) : List (List UInt8) :=
  bytes.foldr
    (fun b ls =>
      if b = 10 then [] :: ls
      else
        match ls with
        | [] => [[b]]
        | l :: ls => (b :: l) :: ls)
    [[]]

/-- Level and message of each line of a file that is one of a log. -/
def entries (bytes : List UInt8) : List String :=
  (lines bytes).filterMap fun l =>
    match String.fromUTF8? ⟨l.toArray⟩ with
    | some s => read? s.toList
    | none => none

end Chip8.LogFile
