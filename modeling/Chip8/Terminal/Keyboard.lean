/-
**The keyboard of a terminal.**

A terminal tells of characters that are typed but never of a key that is let go.  A key of the pad
therefore counts as held for a few polls after its character was last typed: typing it again within
that time keeps it down, and when the time is over its release is reported.

Main definitions:

* `Chip8.Keyboard` — what was typed and not yet read, and for how many polls each key of the pad
  stays down;
* `Chip8.Keyboard.padKey?` — the key of the pad that a character stands for;
* `Chip8.Keyboard.age` — the passing of a poll, with the releases that it brings;
* `Chip8.Keyboard.answer` — what the events of a terminal amount to after that;
* `Chip8.Keyboard.poll` — the answer to the events that a look brings.

Main results:

* `Chip8.Keyboard.padKey?_eq_some_iff` — a character stands for the key whose own it is;
* `Chip8.Keyboard.exists_padKey` — every key of the pad can be typed.
-/
import Chip8.Device
import Chip8.Terminal.Extent
import Chip8.Terminal.Typeahead

set_option relaxedAutoImplicit false
set_option autoImplicit false

namespace Chip8

/-- The keyboard of a terminal. -/
structure Keyboard where
  /-- Whether strokes are handed over at once and unseen. -/
  raw : Bool
  /-- What was typed and not yet read. -/
  ahead : Typeahead
  /-- For each key of the pad, how many polls it still counts as held. -/
  held : Vector Nat 16
deriving DecidableEq

namespace Keyboard

/-- How many polls a key counts as held after it was typed. -/
def holdPolls : Nat :=
  6

/-- The characters for the keys of the pad, in ascending order: the left of the keyboard, in the
shape of the pad. -/
def layout : Vector Char 16 :=
  #v['x', '1', '2', '3', 'q', 'w', 'e', 'a', 's', 'd', 'z', 'c', '4', 'r', 'f', 'v']

/-- The keys of the pad, in ascending order. -/
def padKeys : List (Fin 16) :=
  List.finRange 16

/-- The key of the pad that a character stands for, capital or small. -/
def padKey? (c : Char) : Option (Fin 16) :=
  padKeys.find? fun key => layout.get key == c.toLower

/-- The number of a key as a byte. -/
def byteOf (key : Fin 16) : UInt8 :=
  UInt8.ofNat key

/-! ### Opening and closing -/

/-- A terminal that nobody listens to, with nothing typed. -/
def idle : Keyboard :=
  ⟨false, .empty, Vector.replicate 16 0⟩

/-- Hand strokes over at once and unseen, or no longer.  A change of the mode gives notice of the
bytes that wait. -/
def setRaw (k : Keyboard) (raw : Bool) : Keyboard :=
  if k.raw = raw then k else { k with raw := raw, ahead := k.ahead.notify .bytes }

/-- Begin to listen, no key held. -/
def listen (k : Keyboard) : Keyboard :=
  { k.setRaw true with held := Vector.replicate 16 0 }

/-- Listen no more. -/
def leave (k : Keyboard) : Keyboard :=
  k.setRaw false

/-- Type something, given by the bytes that the terminal sends for it. -/
def type (k : Keyboard) (bytes : List UInt8) : Keyboard :=
  { k with ahead := k.ahead.type bytes }

/-- The terminal is given a size, which is noticed if it is another one. -/
def resize (k : Keyboard) (before after : Extent) : Keyboard :=
  if before = after then k else { k with ahead := k.ahead.resized }

/-! ### Polls -/

/-- The releases that the passing of a poll brings, in ascending order, and what is still held. -/
def age (held : Vector Nat 16) : List KeyEvent × Vector Nat 16 :=
  ((padKeys.filter fun key => held.get key == 1).map fun key => .released (byteOf key),
    held.map (· - 1))

/-- What one event amounts to: the events of the pad, the keys held afterwards and what is noted. -/
def strike (held : Vector Nat 16) :
    TerminalEvent → List KeyEvent × Vector Nat 16 × List Record
  | .escape => ([.quit], held, [])
  | .char c control =>
    if c = 'c' ∧ control then ([.quit], held, [])
    else
      match padKey? c with
      | some key =>
        (if held.get key = 0 then [.pressed (byteOf key)] else [],
          held.setIfInBounds key holdPolls, [])
      | none => ([], held, [.unmapped c])
  | .otherKey => ([], held, [.unknownKey])
  | .pointer => ([], held, [])

/-- What events amount to, in order. -/
def strikeAll (held : Vector Nat 16) :
    List TerminalEvent → List KeyEvent × Vector Nat 16 × List Record
  | [] => ([], held, [])
  | e :: rest =>
    let (events, held, log) := strike held e
    let (events', held, log') := strikeAll held rest
    (events ++ events', held, log ++ log')

/-- What a poll amounts to: first the releases that are due, then the events that it brings. -/
def answer (held : Vector Nat 16) (brought : List TerminalEvent) :
    List KeyEvent × Vector Nat 16 × List Record :=
  let (releases, held) := age held
  let (events, held, log) := strikeAll held brought
  (releases ++ events, held, log)

/-- A poll: the answer to the events that a look brings. -/
def poll (k : Keyboard) : Polled Keyboard :=
  let (brought, ahead) := k.ahead.look
  let (events, held, log) := answer k.held brought
  ⟨.ok events, { k with ahead := ahead, held := held }, log⟩

instance : KeyDevice Keyboard where
  poll := poll

/-! ### Laws -/

/-- No two keys have the same character. -/
theorem layout_inj {a b : Fin 16} : layout.get a = layout.get b ↔ a = b := by
  revert a b
  decide

/-- A character stands for a key if it is the key's own, in either case. -/
theorem padKey?_eq_some_iff {c : Char} {key : Fin 16} :
    padKey? c = some key ↔ c.toLower = layout.get key := by
  have hfits : ∀ {found}, padKey? c = some found → c.toLower = layout.get found := by
    intro found hfound
    have hsame := List.find?_some hfound
    exact (beq_iff_eq.1 hsame).symm
  constructor
  · exact hfits
  · intro h
    have hsome : (padKey? c).isSome :=
      List.find?_isSome.2 ⟨key, List.mem_finRange key, beq_iff_eq.2 h.symm⟩
    obtain ⟨found, hfound⟩ := Option.isSome_iff_exists.1 hsome
    rw [hfound, layout_inj.1 ((hfits hfound).symm.trans h)]

/-- The keyboard covers the pad: every key has a character. -/
theorem exists_padKey (key : Fin 16) : ∃ c, padKey? c = some key := by
  refine ⟨layout.get key, padKey?_eq_some_iff.2 ?_⟩
  revert key
  decide

example : "X123QWEASDZC4RFV".toList.map padKey? = padKeys.map some := by decide

end Keyboard

end Chip8
