/-
**What was typed and not yet read.**

A program that reads a terminal learns of what has happened since its last look in the order in
which it began: bytes came in, or the terminal changed its size.  It attends to the first of the
two and forgets the other.  So bytes that came after a change of size are not read at once, but stay
where they are until something gives new notice of them: the next byte, or a change of the
terminal's mode.  A single reading takes in a limited number of bytes, and what is left over waits
in the same way.

The line to the program has room for a limited number of bytes.  Those that are typed beyond that
come in, and give notice, once a reading has made room for them.

Main definitions:

* `Chip8.Notice` — what a program learns of;
* `Chip8.Typeahead` — the bytes that wait, what was read of them, and the notices since the last
  look;
* `Chip8.Typeahead.type`, `Chip8.Typeahead.resized` — what gives notice;
* `Chip8.Typeahead.look` — the events that a look brings.

Main results:

* `Chip8.Typeahead.stock_type`, `Chip8.Typeahead.stock_read` — no byte is lost on the line;
* `Chip8.Typeahead.look_type` — bytes within the limits are read at once if nothing else was going
  on;
* `Chip8.Typeahead.look_resized` — after a change of size a look brings nothing.
-/
import Chip8.Terminal.Sequence

set_option relaxedAutoImplicit false
set_option autoImplicit false

namespace Chip8

/-- What a program learns of when it looks at a terminal. -/
inductive Notice where
  /-- There may be bytes to read. -/
  | bytes
  | size
deriving DecidableEq, Repr

/-- What was typed and not yet read. -/
structure Typeahead where
  /-- The bytes on the line, oldest first. -/
  line : List UInt8
  /-- The bytes that the line has no room for. -/
  surplus : List UInt8
  /-- The bytes that were read of a sequence which is not finished. -/
  begun : List UInt8
  /-- What was read and not yet handed over. -/
  pending : List Reading
  /-- The notices since the last look, oldest first. -/
  notices : List Notice
  /-- Whether anyone has looked yet: before that a change of size goes unnoticed. -/
  watched : Bool
deriving DecidableEq

namespace Typeahead

/-- The most bytes that one reading takes in. -/
def readLimit : Nat :=
  1204

/-- The most bytes that the line has room for. -/
def lineLimit : Nat :=
  4095

/-- Nothing was typed and nobody has looked. -/
def empty : Typeahead :=
  ⟨[], [], [], [], [], false⟩

/-- All bytes that were typed and not read. -/
def stock (a : Typeahead) : List UInt8 :=
  a.line ++ a.surplus

/-! ### Notices -/

/-- Give notice of something, unless that was done since the last look. -/
def notify (a : Typeahead) (n : Notice) : Typeahead :=
  if n ∈ a.notices then a else { a with notices := a.notices ++ [n] }

/-- How many bytes the line has room for. -/
def room (a : Typeahead) : Nat :=
  lineLimit - a.line.length

/-- Let as many bytes come in as the line has room for, and give notice of them. -/
def fill (a : Typeahead) : Typeahead :=
  if a.room = 0 ∨ a.surplus = [] then a
  else
    { a with
      line := a.line ++ a.surplus.take a.room
      surplus := a.surplus.drop a.room }.notify .bytes

/-- Type something. -/
def type (a : Typeahead) (bytes : List UInt8) : Typeahead :=
  { a with surplus := a.surplus ++ bytes }.fill

/-- The terminal changes its size. -/
def resized (a : Typeahead) : Typeahead :=
  if a.watched then a.notify .size else a

/-! ### Reading -/

/-- Read what one reading takes in, which makes room on the line. -/
def read (a : Typeahead) : Typeahead :=
  let piece := a.line.take readLimit
  let (begun, readings) := Sequence.advance a.begun (piece.length == readLimit) piece
  { a with
    line := a.line.drop readLimit
    begun := begun
    pending := a.pending ++ readings }.fill

@[simp]
theorem stock_notify (a : Typeahead) (n : Notice) : (a.notify n).stock = a.stock := by
  unfold notify
  split <;> rfl

@[simp]
theorem stock_fill (a : Typeahead) : a.fill.stock = a.stock := by
  unfold fill
  split
  · rfl
  · rw [stock_notify]
    simp only [stock, List.append_assoc, List.take_append_drop]

/-- What is typed is at the end of the stock. -/
theorem stock_type (a : Typeahead) (bytes : List UInt8) :
    (a.type bytes).stock = a.stock ++ bytes := by
  rw [type, stock_fill]
  simp only [stock, List.append_assoc]

/-- What is read is at the head of the stock, which loses nothing else. -/
theorem stock_read (a : Typeahead) : a.line.take readLimit ++ a.read.stock = a.stock := by
  rw [read, stock_fill]
  simp only [stock]
  rw [← List.append_assoc, List.take_append_drop]

theorem length_stock_read {a : Typeahead} (h : a.line ≠ []) :
    a.read.stock.length < a.stock.length := by
  have hlen := congrArg List.length (stock_read a)
  have hpos := List.length_pos_iff.2 h
  simp only [List.length_append, List.length_take, readLimit] at hlen
  omega

/-- Read until it tells something, or until the line is empty. -/
def readOn (a : Typeahead) : Typeahead :=
  if _h : a.line = [] then a
  else if a.read.pending = [] then a.read.readOn
  else a.read
termination_by a.stock.length
decreasing_by exact length_stock_read _h

theorem length_stock_readOn_le (a : Typeahead) : a.readOn.stock.length ≤ a.stock.length := by
  fun_induction readOn a with
  | case1 a _ => exact Nat.le_refl _
  | case2 a h hp ih => exact Nat.le_trans ih (Nat.le_of_lt (length_stock_read h))
  | case3 a h hp => exact Nat.le_of_lt (length_stock_read h)

theorem length_stock_readOn {a : Typeahead} (h : a.line ≠ []) :
    a.readOn.stock.length < a.stock.length := by
  rw [readOn, dif_neg h]
  split
  · exact Nat.lt_of_le_of_lt (length_stock_readOn_le _) (length_stock_read h)
  · exact length_stock_read h

/-! ### Looking -/

/-- Hand over what was read: the events, and what stays behind if the place of the cursor is among
it, for which nobody looks. -/
def handOver : List Reading → List TerminalEvent × Option (List Reading)
  | [] => ([], none)
  | .cursor :: rest => ([], some rest)
  | .event e :: rest =>
    let next := handOver rest
    (e :: next.1, next.2)

/-- The notices that hold true: there are bytes to read only if some wait. -/
def trueNotices (a : Typeahead) : List Notice :=
  a.notices.filter fun n => n == .size || !a.line.isEmpty

/-- Whether the first thing to attend to are bytes. -/
def invites (a : Typeahead) : Bool :=
  a.trueNotices.head? = some .bytes

theorem line_ne_nil_of_invites {a : Typeahead} (h : a.invites = true) : a.line ≠ [] := by
  intro hl
  simp only [invites, trueNotices, hl, List.isEmpty_nil, Bool.not_true, Bool.or_false,
    decide_eq_true_eq] at h
  have hmem := List.mem_of_mem_head? h
  simp at hmem

/-- Nothing is pending and nothing is left to be noticed. -/
def seen (a : Typeahead) : Typeahead :=
  { a with pending := [], notices := [], watched := true }

/-- The events that a look brings.  What was read is handed over; then the first notice is attended
to, and so on until there is none. -/
def look (a : Typeahead) : List TerminalEvent × Typeahead :=
  match handOver a.pending with
  | (events, some rest) => (events, { a with pending := rest })
  | (events, none) =>
    if _h : a.invites then
      let next := a.seen.readOn.look
      (events ++ next.1, next.2)
    else (events, a.seen)
termination_by a.stock.length
decreasing_by all_goals exact length_stock_readOn (a := a.seen) (line_ne_nil_of_invites (a := a) _h)

/-! ### Laws -/

theorem invites_eq_false {a : Typeahead} (h : a.notices = []) : a.invites = false := by
  simp [invites, trueNotices, h]

theorem invites_size {a : Typeahead} {rest : List Notice} (h : a.notices = .size :: rest) :
    a.invites = false := by
  simp [invites, trueNotices, h]

/-- A look that finds nothing hands over what was read before. -/
theorem look_of_invites_eq_false {a : Typeahead} (h : a.invites = false) :
    a.look.1 = (handOver a.pending).1 := by
  rw [look]
  split
  · next heq => rw [heq]
  · next heq => rw [heq, dif_neg (by simp [h])]

/-- A look that finds bytes tells what reading them does. -/
theorem look_of_invites {a : Typeahead} (hp : a.pending = []) (h : a.invites = true) :
    a.look.1 = a.seen.readOn.look.1 := by
  rw [look]
  split
  · next heq => simp [hp, handOver] at heq
  · next heq =>
    simp only [hp, handOver, Prod.mk.injEq, and_true] at heq
    rw [dif_pos h, ← heq]
    rfl

/-- One reading tells all if the line empties by it. -/
theorem readOn_of_length_lt {a : Typeahead} (hl : a.line ≠ []) (hs : a.surplus = [])
    (h : a.line.length < readLimit) :
    a.readOn =
      { a with
        line := []
        begun := (Sequence.advance a.begun false a.line).1
        pending := a.pending ++ (Sequence.advance a.begun false a.line).2 } := by
  have htake : a.line.take readLimit = a.line := List.take_of_length_le (Nat.le_of_lt h)
  have hdrop : a.line.drop readLimit = [] := List.drop_of_length_le (Nat.le_of_lt h)
  have hmore : (a.line.length == readLimit) = false := by simpa using Nat.ne_of_lt h
  have hread : a.read =
      { a with
        line := []
        begun := (Sequence.advance a.begun false a.line).1
        pending := a.pending ++ (Sequence.advance a.begun false a.line).2 } := by
    simp [read, htake, hdrop, hmore, fill, hs]
  rw [readOn, dif_neg hl]
  split
  · rw [readOn, dif_pos (by rw [hread]), hread]
  · exact hread

/-- Bytes within the limits are read at once if nothing else was going on. -/
theorem look_type {a : Typeahead} {bytes : List UInt8} (hl : a.line = []) (hs : a.surplus = [])
    (hp : a.pending = []) (hn : a.notices = []) (h : bytes.length < readLimit) :
    (a.type bytes).look.1 = (handOver (Sequence.advance a.begun false bytes).2).1 := by
  by_cases hb : bytes = []
  · subst hb
    have ht : a.type [] = a := by
      cases a
      simp_all [type, fill]
    rw [ht, look_of_invites_eq_false (invites_eq_false hn), hp]
    rfl
  · have hroom : bytes.length ≤ lineLimit := by
      simp only [readLimit, lineLimit] at h ⊢
      omega
    have ht : a.type bytes = { a with line := bytes, notices := [.bytes] } := by
      have hne : lineLimit ≠ 0 := by decide
      simp [type, fill, room, notify, hl, hs, hn, hb, hne, List.take_of_length_le hroom,
        List.drop_of_length_le hroom]
    have hi : (a.type bytes).invites = true := by
      rw [ht]
      simp [invites, trueNotices, hb]
    have hseen : (a.type bytes).seen = { a with line := bytes, watched := true } := by
      rw [ht]
      simp [seen, hp, hn]
    have hpend : (a.type bytes).pending = [] := by rw [ht, hp]
    have hread := readOn_of_length_lt (a := { a with line := bytes, watched := true }) hb hs h
    rw [look_of_invites hpend hi, hseen, hread]
    refine (look_of_invites_eq_false (invites_eq_false ?_)).trans ?_
    · exact hn
    · simp [hp]

/-- After a change of size a look brings nothing, whatever is typed meanwhile. -/
theorem look_resized {a : Typeahead} (bytes : List UInt8) (hw : a.watched = true)
    (hp : a.pending = []) (hn : a.notices = []) : (a.resized.type bytes).look.1 = [] := by
  have hr : a.resized = { a with notices := [.size] } := by simp [resized, notify, hw, hn]
  have hn' : ∃ rest, (a.resized.type bytes).notices = .size :: rest := by
    rw [hr]
    simp only [type, fill]
    split <;> simp [notify]
  have hp' : (a.resized.type bytes).pending = [] := by
    rw [hr]
    simp only [type, fill]
    split <;> simp [notify, hp]
  obtain ⟨rest, hrest⟩ := hn'
  rw [look_of_invites_eq_false (invites_size hrest), hp']
  rfl

end Typeahead

end Chip8
