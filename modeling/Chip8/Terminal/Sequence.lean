/-
**What the bytes from a terminal mean.**

The bytes come one by one, and after each of them it is settled whether those that have come so far
mean something, may still come to mean something, or never will; in the first and in the last case
the next byte begins anew.  An escape is the escape key if nothing follows it at once or another
escape does.  Before a bracket or a capital O it begins a sequence for a key that is no character,
for the pointer or for the place of the cursor, and before anything else it only tells that the
alternate key is down.

Main definitions:

* `Chip8.TerminalEvent` — what can happen at a terminal;
* `Chip8.Reading`, `Chip8.Meaning` — what bytes tell, if they tell anything yet;
* `Chip8.Sequence.ofBytes` — the meaning of the bytes since the last one that ended something;
* `Chip8.Sequence.advance` — what a piece of the stream of bytes tells, in order.

Main result: `Chip8.Sequence.advance_append`, it makes no difference where a stream is cut as long
as it is known to go on.
-/
import Chip8.Terminal.Stroke
import Chip8.Text.Decimal

set_option relaxedAutoImplicit false
set_option autoImplicit false

namespace Chip8

/-- What can happen at a terminal. -/
inductive TerminalEvent where
  /-- A character was typed, with or without the control key. -/
  | char (c : Char) (control : Bool)
  | escape
  | otherKey
  | pointer
deriving DecidableEq, Repr

/-- What bytes tell. -/
inductive Reading where
  | event (e : TerminalEvent)
  /-- The place of the cursor, for which nobody asked. -/
  | cursor
deriving DecidableEq, Repr

/-- What is known of bytes that have come so far. -/
inductive Meaning where
  /-- It depends on those to come. -/
  | unfinished
  /-- They tell nothing, and no byte to come could change that. -/
  | nonsense
  /-- They tell something. -/
  | reading (r : Reading)
deriving DecidableEq, Repr

namespace Meaning

/-- Something happened. -/
def happened (e : TerminalEvent) : Meaning :=
  reading (.event e)

end Meaning

namespace Sequence

/-- The byte of the escape key. -/
def escapeByte : UInt8 :=
  27

/-! ### Characters -/

/-- How many bytes a character has that begins with a byte, if one can begin so. -/
def width? (b : UInt8) : Option Nat :=
  if b < 0x80 then some 1
  else if b < 0xc0 then none
  else if b < 0xe0 then some 2
  else if b < 0xf0 then some 3
  else if b < 0xf8 then some 4
  else none

/-- Whether a byte can go on with a character. -/
def goesOn (b : UInt8) : Bool :=
  0x80 ≤ b && b < 0xc0

/-- The meaning of bytes as a character. -/
def character (bytes : List UInt8) : Meaning :=
  match bytes.toByteArray.utf8DecodeChar? 0, bytes.head?.bind width? with
  | some c, _ => .happened (.char c false)
  | none, some n =>
    if bytes.tail.all goesOn && bytes.length < n then .unfinished else .nonsense
  | none, none => .nonsense

/-- The meaning of bytes of which the first is no escape: a key of one byte, a letter or one of the
signs after it with the control key, or a character. -/
def plain (b : UInt8) (rest : List UInt8) : Meaning :=
  if b ∈ [9, 13, 127] then .happened .otherKey
  else if b = 0 then .happened (.char ' ' true)
  else if b ≤ 26 then .happened (.char (Char.ofNat (b.toNat + 96)) true)
  else if b < 32 then .happened (.char (Char.ofNat (b.toNat + 24)) true)
  else character (b :: rest)

/-! ### Sequences -/

/-- The keys that numbers stand for: those for moving around and editing, and function keys. -/
def numberedKeys : List Nat :=
  [1, 2, 3, 4, 5, 6, 7, 8, 11, 12, 13, 14, 15, 17, 18, 19, 20, 21, 23, 24, 25, 26, 28, 29, 31, 32,
    33, 34]

/-- Whether a number tells what was done with a pointer: its low bits and its high bits name one of
three buttons, none, or one of two directions of the wheel. -/
def isPointerCode (code : Nat) : Bool :=
  code % 4 + code / 64 % 4 * 4 ≤ 5

/-- What stands between semicolons. -/
def fields (cs : List Char) : List (List Char) :=
  cs.splitOn ';'

/-- The meaning of the numbers that tell of a pointer: what was done, and where. -/
def pointed (code : Option Nat) (x y : List Char) : Meaning :=
  match code, Decimal.natural? 65535 x, Decimal.natural? 65535 y with
  | some code, some _, some _ =>
    if isPointerCode code then .happened .pointer else .nonsense
  | _, _, _ => .nonsense

/-- The meaning of numbers with a letter or a sign after them. -/
def numbered (cs : List Char) (last : Char) : Meaning :=
  match last, fields cs with
  | 'M', code :: x :: y :: _ =>
    pointed (((Decimal.natural? 255 code).filter (32 ≤ ·)).map (· - 32)) x y
  | 'R', y :: x :: _ =>
    match Decimal.natural? 65535 y, Decimal.natural? 65535 x with
    | some _, some _ => .reading .cursor
    | _, _ => .nonsense
  | '~', key :: _ =>
    match Decimal.natural? 255 key with
    | some n => if n ∈ numberedKeys then .happened .otherKey else .nonsense
    | none => .nonsense
  | 'M', _ | 'R', _ | '~', _ => .nonsense
  | _, _ => if last ∈ "ABCDFHPQS".toList then .happened .otherKey else .nonsense

/-- The meaning of what follows an escape and a bracket. -/
def bracketed (cs : List Char) : Meaning :=
  match cs with
  | [] => .unfinished
  | ['['] => .unfinished
  | '[' :: c :: _ => if 'A' ≤ c ∧ c ≤ 'E' then .happened .otherKey else .nonsense
  | 'M' :: code :: _ :: _ :: _ =>
    if 32 ≤ code.toNat ∧ isPointerCode (code.toNat - 32) then .happened .pointer else .nonsense
  | 'M' :: _ => .unfinished
  | '<' :: rest =>
    if rest.getLast? = some 'M' ∨ rest.getLast? = some 'm' then
      match fields rest.dropLast with
      | code :: x :: y :: _ => pointed (Decimal.natural? 255 code) x y
      | _ => .nonsense
    else .unfinished
  | c :: rest =>
    if c ∈ "ABCDFHZ".toList then .happened .otherKey
    else if c.isDigit then
      match rest.getLast? with
      | some last =>
        if '@' ≤ last ∧ last ≤ '~' then numbered (c :: rest.dropLast) last else .unfinished
      | none => .unfinished
    else .nonsense

/-- The meaning of what follows an escape. -/
def escaped (more : Bool) (bytes : List UInt8) : Meaning :=
  match bytes, bytes.map fun b => Char.ofNat b.toNat with
  | [], _ => if more then .unfinished else .happened .escape
  | _, '\x1b' :: _ => .happened .escape
  | _, '[' :: cs => bracketed cs
  | _, ['O'] => .unfinished
  | _, 'O' :: c :: _ => if 'P' ≤ c ∧ c ≤ 'S' then .happened .otherKey else .nonsense
  | b :: rest, _ => plain b rest

/-- The meaning of the bytes since the last one that ended something, and whether more are known
to follow. -/
def ofBytes (more : Bool) (bytes : List UInt8) : Meaning :=
  match bytes with
  | [] => .unfinished
  | b :: rest => if b = escapeByte then escaped more rest else plain b rest

/-! ### Streams -/

/-- What a piece of a stream tells, in order, and the bytes at its end that are not finished.  It
begins after bytes that were not, and more may be known to follow it. -/
def advance (begun : List UInt8) (more : Bool) : List UInt8 → List UInt8 × List Reading
  | [] => (begun, [])
  | b :: rest =>
    match ofBytes (more || !rest.isEmpty) (begun ++ [b]) with
    | .unfinished => advance (begun ++ [b]) more rest
    | .nonsense => advance [] more rest
    | .reading r =>
      let next := advance [] more rest
      (next.1, r :: next.2)

/-- It makes no difference where a stream is cut as long as it is known to go on. -/
theorem advance_append (begun : List UInt8) (more : Bool) (xs ys : List UInt8) (h : ys ≠ []) :
    advance begun more (xs ++ ys) =
      ((advance (advance begun true xs).1 more ys).1,
        (advance begun true xs).2 ++ (advance (advance begun true xs).1 more ys).2) := by
  induction xs generalizing begun with
  | nil => simp [advance]
  | cons b xs ih =>
    have hne : (xs ++ ys).isEmpty = false := by simp [h]
    simp only [List.cons_append, advance, hne, Bool.not_false, Bool.or_true, Bool.true_or]
    split <;> simp [ih]

/-- Keys that are no characters are recognised as such. -/
theorem ofBytes_sent (more : Bool) (key : NamedKey) :
    ofBytes more key.sent = .happened .otherKey := by
  cases key <;> cases more <;> decide

end Sequence

end Chip8
