/-
**Strokes.**

What can be typed at a terminal, and the bytes that the terminal sends for it.  A character is sent
as it is, a letter with the control key as a single byte, and the other keys as a byte or as a
sequence that begins with an escape.  With the alternate key an escape goes before all this.

Main definitions:

* `Chip8.NamedKey` — the keys that are no characters, with `Chip8.NamedKey.sent`;
* `Chip8.Stroke` — what can be typed, with `Chip8.Stroke.sent` for the bytes that are sent for it.

Main result: `Chip8.Stroke.sent_ne_nil`, no stroke goes unsent.
-/

set_option relaxedAutoImplicit false
set_option autoImplicit false

namespace Chip8

/-- The keys that are no characters. -/
inductive NamedKey where
  | enter
  | tab
  | backspace
  | up
  | down
  | left
  | right
  | home
  | delete
  | f1
deriving DecidableEq, Repr

/-- The bytes of ASCII characters. -/
def ascii (s : String) : List UInt8 :=
  s.toList.map Char.toUInt8

namespace NamedKey

/-- What the terminal sends: a byte, or a sequence that begins with an escape. -/
def sent : NamedKey → List UInt8
  | enter => [13]
  | tab => [9]
  | backspace => [127]
  | up => ascii "\x1b[A"
  | down => ascii "\x1b[B"
  | right => ascii "\x1b[C"
  | left => ascii "\x1b[D"
  | home => ascii "\x1b[H"
  | delete => ascii "\x1b[3~"
  | f1 => ascii "\x1bOP"

end NamedKey

/-- What can be typed. -/
inductive Stroke where
  | char (c : Char)
  /-- A letter with the control key. -/
  | control (letter : Char)
  /-- A stroke with the alternate key as well. -/
  | alternate (stroke : Stroke)
  | escape
  /-- A key that is no character. -/
  | named (key : NamedKey)
  /-- A click, which is no key. -/
  | pointer
deriving DecidableEq, Repr

namespace Stroke

/-- What the terminal sends.  The control key leaves the low bits of a letter; an escape on its own
is doubled, so that what comes after is not taken for the rest of a sequence. -/
def sent : Stroke → List UInt8
  | char c => String.utf8EncodeChar c
  | control letter => [letter.toUInt8 % 32]
  | alternate s => 27 :: s.sent
  | escape => [27, 27]
  | named key => key.sent
  | pointer => ascii "\x1b[<0;1;1M"

/-- Every stroke is sent as some bytes. -/
theorem sent_ne_nil (s : Stroke) : s.sent ≠ [] := by
  cases s with
  | char c =>
    have h := Char.utf8Size_pos c
    rw [← String.length_utf8EncodeChar] at h
    exact List.ne_nil_of_length_pos h
  | control letter => simp [sent]
  | alternate s => simp [sent]
  | escape => simp [sent]
  | named key => cases key <;> decide
  | pointer => decide

end Stroke

end Chip8
