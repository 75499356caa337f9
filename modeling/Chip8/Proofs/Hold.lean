/-
**How long a key is held.**

A terminal tells of what is typed and not of what is let go, so a keyboard makes up the releases.  For
each key of the pad it keeps a count of polls: six when the key is typed, one less at each poll after
that, and when the count runs out the key is released.  Typing the key again while it is held only
renews the count.

What the count says about the past is the invariant here: it is at least `n` exactly if the key was
typed in one of the last `7 - n` polls.  From it follows in which poll a key is released, and in which
it is pressed.  And since a key is pressed only when its count has run out, and released only when it
runs out, the presses and releases of a key alternate, over any number of polls.

Main definitions:

* `Chip8.Keyboard.typedIn` — the key is typed by one of these events;
* `Chip8.Keyboard.heldBefore`, `Chip8.Keyboard.reported` — what is held before a poll, and what the
  poll reports;
* `Chip8.Keyboard.polled` — polls of a keyboard in a row;
* `Chip8.Keyboard.Alternates`, `Chip8.Keyboard.InTurn` — a press, a release, a press, and so on.

Main results:

* `Chip8.Keyboard.typedIn_iff` — what types a key;
* `Chip8.Keyboard.strike_cases` — what an event can do;
* `Chip8.Keyboard.get_answer`, `Chip8.Keyboard.filter_answer` — what a poll makes of a count, and what
  it reports of one key;
* `Chip8.Keyboard.le_heldBefore_iff` — the count and the past;
* `Chip8.Keyboard.InTurn.poll`, `Chip8.Keyboard.inTurn_reported` — the turns of a key, over any number
  of polls;
* `Chip8.Keyboard.polled_events`, `Chip8.Typeahead.exists_look` — polls of a keyboard report this, and
  anything may have been typed;
* `Chip8.Keyboard.hold_of_polls` — **the protocol of a key**.
-/
import Chip8.Proofs.KeyHistory
import Chip8.Terminal.Keyboard

set_option relaxedAutoImplicit false
set_option autoImplicit false

namespace Chip8

/-- Any list of events may have been read before a look, and the look brings them. -/
theorem Typeahead.exists_look (events : List TerminalEvent) :
    ∃ a : Typeahead, a.look.1 = events := by
  refine ⟨{ empty with pending := events.map .event }, ?_⟩
  rw [look_of_invites_eq_false (invites_eq_false rfl)]
  induction events with
  | nil => rfl
  | cons event events ih => exact congrArg (event :: ·) ih

namespace Keyboard

/-- Whether an event types this key.  A `c` with the control key down quits instead. -/
def types (key : Fin 16) : TerminalEvent → Bool
  | .char c control => !(c == 'c' && control) && padKey? c == some key
  | .escape | .otherKey | .pointer => false

/-- Whether one of these events types this key. -/
def typedIn (key : Fin 16) (brought : List TerminalEvent) : Bool :=
  brought.any (types key)

/-- What types a key: one of its characters, and not the `c` that quits. -/
theorem typedIn_iff {key : Fin 16} {brought : List TerminalEvent} :
    typedIn key brought = true ↔ ∃ c control, .char c control ∈ brought ∧
      padKey? c = some key ∧ ¬ (c = 'c' ∧ control = true) := by
  rw [typedIn, List.any_eq_true]
  constructor
  · rintro ⟨event, hmem, htypes⟩
    cases event with
    | char c control =>
        simp only [types, Bool.and_eq_true, Bool.not_eq_true', beq_iff_eq] at htypes
        exact ⟨c, control, hmem, htypes.2, by simpa using htypes.1⟩
    | escape | otherKey | pointer => cases htypes
  · rintro ⟨c, control, hmem, hkey, hquit⟩
    have hnot : (c == 'c' && control) = false := by simpa using hquit
    exact ⟨_, hmem, by simp [types, hkey, hnot]⟩

theorem byteOf_inj {a b : Fin 16} : byteOf a = byteOf b ↔ a = b := by
  revert a b
  decide

/-! ### One poll -/

section Poll

variable (held : Vector Nat 16) (key : Fin 16)

/-- At each poll there is one poll less to go. -/
theorem get_age : (age held).2.get key = held.get key - 1 :=
  Vector.getElem_map (· - 1) key.isLt

/-- The count of one key is set, and the others stay the same. -/
theorem get_setIfInBounds (typed : Fin 16) (count : Nat) :
    (held.setIfInBounds typed count).get key = if typed = key then count else held.get key := by
  have hget : (held.setIfInBounds typed count).get key =
      if typed.val = key.val then count else held.get key := Vector.getElem_setIfInBounds key.isLt
  rw [hget]
  simp only [Fin.ext_iff]

/-- A key is released when its count runs out. -/
theorem filter_age :
    (age held).1.filter (KeyEvent.concerns (byteOf key)) =
      if held.get key = 1 then [.released (byteOf key)] else [] := by
  have honly : padKeys.filter (fun other => other == key) = [key] := by
    revert key
    decide
  have hconcerns : (KeyEvent.concerns (byteOf key) ∘ fun other => .released (byteOf other)) =
      fun other : Fin 16 => other == key := by
    funext other
    simp [KeyEvent.concerns, byteOf_inj, Bool.beq_eq_decide_eq]
  have hcomm : (padKeys.filter fun other => held.get other == 1).filter (fun other => other == key) =
      (padKeys.filter fun other => other == key).filter (fun other => held.get other == 1) := by
    simp only [List.filter_filter, Bool.and_comm]
  rw [age, List.filter_map, hconcerns, hcomm, honly]
  by_cases hone : held.get key = 1 <;> simp [hone]

/-- **What an event can do**: it types a key, or it leaves the counts alone. -/
theorem strike_cases (event : TerminalEvent) :
    (∃ typed, (∀ key, types key event = decide (typed = key)) ∧
      strike held event =
        (if held.get typed = 0 then [.pressed (byteOf typed)] else [],
          held.setIfInBounds typed holdPolls, [])) ∨
    (∀ key, types key event = false) ∧ (strike held event).2.1 = held ∧
      ((strike held event).1 = [] ∨ (strike held event).1 = [.quit]) := by
  cases event with
  | char c control =>
      by_cases hquit : c = 'c' ∧ control = true
      · refine .inr ⟨fun key => ?_, ?_, ?_⟩
        · simp [types, hquit]
        · simp [strike, hquit]
        · simp [strike, hquit]
      · have hnot : (c == 'c' && control) = false := by simpa using hquit
        cases hkey : padKey? c with
        | some typed =>
            refine .inl ⟨typed, fun key => ?_, ?_⟩
            · simp only [types, hnot, hkey]
              rfl
            · simp only [strike, if_neg hquit, hkey]
        | none =>
            refine .inr ⟨fun key => ?_, ?_, ?_⟩
            · simp [types, hnot, hkey]
            · simp only [strike, if_neg hquit, hkey]
            · simp only [strike, if_neg hquit, hkey, true_or]
  | escape => exact .inr ⟨fun _ => rfl, rfl, .inr rfl⟩
  | otherKey | pointer => exact .inr ⟨fun _ => rfl, rfl, .inl rfl⟩

/-- A key is typed by an event, or its count stays the same. -/
theorem get_strike (event : TerminalEvent) :
    (strike held event).2.1.get key = if types key event then holdPolls else held.get key := by
  obtain ⟨typed, htypes, hstrike⟩ | ⟨htypes, hheld, -⟩ := strike_cases held event
  · rw [hstrike, htypes, get_setIfInBounds]
    simp only [decide_eq_true_eq]
  · rw [hheld, htypes]
    rfl

/-- A key is pressed when it is typed and not held. -/
theorem filter_strike (event : TerminalEvent) :
    (strike held event).1.filter (KeyEvent.concerns (byteOf key)) =
      if types key event && held.get key == 0 then [.pressed (byteOf key)] else [] := by
  obtain ⟨typed, htypes, hstrike⟩ | ⟨htypes, -, hquiet⟩ := strike_cases held event
  · rw [hstrike, htypes]
    by_cases hkey : typed = key
    · subst hkey
      by_cases hup : held.get typed = 0 <;> simp [hup, KeyEvent.concerns]
    · have hother : KeyEvent.concerns (byteOf key) (.pressed (byteOf typed)) = false := by
        simp [KeyEvent.concerns, byteOf_inj, hkey]
      by_cases hup : held.get typed = 0 <;> simp [hup, hkey, hother]
  · rw [htypes]
    rcases hquiet with hnone | hquits
    · rw [hnone]
      rfl
    · rw [hquits]
      rfl

/-- No event of a terminal lets a key go. -/
theorem strike_ne_released (event : TerminalEvent) :
    ∀ reported ∈ (strike held event).1, ∀ byte, reported ≠ .released byte := by
  intro reported hmem byte hreleased
  subst hreleased
  obtain ⟨typed, -, hstrike⟩ | ⟨-, -, hnone | hquits⟩ := strike_cases held event
  · rw [hstrike] at hmem
    split at hmem <;> simp at hmem
  · simp [hnone] at hmem
  · simp [hquits] at hmem

/-- A key is typed among the events of a poll, or its count stays the same. -/
theorem get_strikeAll (brought : List TerminalEvent) :
    (strikeAll held brought).2.1.get key =
      if typedIn key brought then holdPolls else held.get key := by
  induction brought generalizing held with
  | nil => rfl
  | cons event brought ih =>
      have hlater := ih (strike held event).2.1
      rw [get_strike] at hlater
      simp only [strikeAll, hlater, typedIn, List.any_cons]
      by_cases hfirst : types key event = true <;> simp [hfirst]

/-- **A key is pressed once in a poll**, however often it is typed, and not at all if it is held. -/
theorem filter_strikeAll (brought : List TerminalEvent) :
    (strikeAll held brought).1.filter (KeyEvent.concerns (byteOf key)) =
      if typedIn key brought && held.get key == 0 then [.pressed (byteOf key)] else [] := by
  induction brought generalizing held with
  | nil => rfl
  | cons event brought ih =>
      have hlater := ih (strike held event).2.1
      rw [get_strike] at hlater
      simp only [strikeAll, List.filter_append, filter_strike, hlater, typedIn, List.any_cons]
      -- once typed the key is held, so that it is not pressed by what follows
      by_cases hfirst : types key event = true <;> simp [hfirst, holdPolls]

theorem strikeAll_ne_released (brought : List TerminalEvent) :
    ∀ reported ∈ (strikeAll held brought).1, ∀ byte, reported ≠ .released byte := by
  induction brought generalizing held with
  | nil => exact fun _ hmem => absurd hmem List.not_mem_nil
  | cons event brought ih =>
      intro reported hmem
      rcases List.mem_append.1 hmem with hfirst | hrest
      · exact strike_ne_released held event reported hfirst
      · exact ih (strike held event).2.1 reported hrest

/-- What a poll makes of a count. -/
theorem get_answer (brought : List TerminalEvent) :
    (answer held brought).2.1.get key =
      if typedIn key brought then holdPolls else held.get key - 1 := by
  rw [← get_age]
  exact get_strikeAll (age held).2 key brought

/-- **What a poll reports of one key**: its release if its count runs out, and after that its press if
it is typed while it is not held. -/
theorem filter_answer (brought : List TerminalEvent) :
    (answer held brought).1.filter (KeyEvent.concerns (byteOf key)) =
      (if held.get key = 1 then [.released (byteOf key)] else []) ++
        if typedIn key brought && held.get key - 1 == 0 then [.pressed (byteOf key)] else [] := by
  have hreleases := filter_age held key
  have hpresses := filter_strikeAll (age held).2 key brought
  rw [get_age] at hpresses
  rw [← hreleases, ← hpresses]
  exact List.filter_append ..

/-- The releases of a poll come first. -/
theorem releases_first (brought : List TerminalEvent) :
    ∃ releases others, (answer held brought).1 = releases ++ others ∧
      (∀ reported ∈ releases, ∃ key, reported = .released (byteOf key)) ∧
      ∀ reported ∈ others, ∀ byte, reported ≠ .released byte := by
  refine ⟨(age held).1, (strikeAll (age held).2 brought).1, rfl, ?_, strikeAll_ne_released _ _⟩
  intro reported hmem
  obtain ⟨key, -, rfl⟩ := List.mem_map.1 hmem
  exact ⟨key, rfl⟩

end Poll

/-! ### Polls in a row -/

section Polls

variable (brought : Nat → List TerminalEvent)

/-- How long each key is held, before a poll.  In the beginning none is. -/
def heldBefore : Nat → Vector Nat 16
  | 0 => Vector.replicate 16 0
  | p + 1 => (answer (heldBefore p) (brought p)).2.1

/-- What a poll reports. -/
def reported (p : Nat) : List KeyEvent :=
  (answer (heldBefore brought p) (brought p)).1

variable (key : Fin 16)

theorem get_heldBefore_zero : (heldBefore brought 0).get key = 0 :=
  Vector.getElem_replicate key.isLt

/-- **The count and the past**: a key has at least so many polls to go if it was typed in one of the
last polls. -/
theorem le_heldBefore_iff {n : Nat} (hn : 0 < n) (p : Nat) :
    n ≤ (heldBefore brought p).get key ↔
      ∃ q < p, typedIn key (brought q) = true ∧ p + n ≤ q + 7 := by
  induction p generalizing n with
  | zero =>
      rw [get_heldBefore_zero]
      constructor
      · omega
      · rintro ⟨q, hq, -⟩
        omega
  | succ p ih =>
      rw [heldBefore, get_answer]
      by_cases htyped : typedIn key (brought p) = true
      · rw [if_pos htyped, holdPolls]
        constructor
        · intro hle
          exact ⟨p, Nat.lt_succ_self p, htyped, by omega⟩
        · rintro ⟨q, hq, -, hle⟩
          omega
      · have hcount : n ≤ (heldBefore brought p).get key - 1 ↔
            n + 1 ≤ (heldBefore brought p).get key := by omega
        rw [if_neg htyped, hcount, ih (Nat.succ_pos n)]
        constructor
        · rintro ⟨q, hq, hqtyped, hle⟩
          exact ⟨q, Nat.lt_succ_of_lt hq, hqtyped, by omega⟩
        · rintro ⟨q, hq, hqtyped, hle⟩
          have hne : q ≠ p := by
            rintro rfl
            exact htyped hqtyped
          exact ⟨q, by omega, hqtyped, by omega⟩

/-- A key is released by a poll if it was typed six polls before, and not since. -/
theorem heldBefore_eq_one_iff (p : Nat) :
    (heldBefore brought p).get key = 1 ↔
      ∃ q, q + 6 = p ∧ typedIn key (brought q) = true ∧
        ∀ r, q < r → r < p → ¬ typedIn key (brought r) = true := by
  have hone := le_heldBefore_iff brought key Nat.one_pos p
  have htwo := le_heldBefore_iff brought key Nat.two_pos p
  constructor
  · intro hcount
    rw [hcount] at hone htwo
    obtain ⟨q, hq, htyped, hle⟩ := hone.1 (Nat.le_refl 1)
    have hlater : ∀ r < p, typedIn key (brought r) = true → ¬ p + 2 ≤ r + 7 :=
      fun r hr hrtyped hle' => absurd (htwo.2 ⟨r, hr, hrtyped, hle'⟩) (by omega)
    have hsix : q + 6 = p := by
      have hnot := hlater q hq htyped
      omega
    refine ⟨q, hsix, htyped, fun r hqr hr hrtyped => hlater r hr hrtyped (by omega)⟩
  · rintro ⟨q, rfl, htyped, hlater⟩
    have hheld := hone.2 ⟨q, by omega, htyped, by omega⟩
    have hnot : ¬ 2 ≤ (heldBefore brought (q + 6)).get key := by
      intro hle
      obtain ⟨r, hr, hrtyped, hle'⟩ := htwo.1 hle
      exact hlater r (by omega) hr hrtyped
    omega

/-- A key is not held any more, when a poll has passed, if it was not typed in the last five polls. -/
theorem heldBefore_le_one_iff (p : Nat) :
    (heldBefore brought p).get key - 1 = 0 ↔
      ∀ q < p, p ≤ q + 5 → ¬ typedIn key (brought q) = true := by
  have htwo := le_heldBefore_iff brought key Nat.two_pos p
  constructor
  · intro hcount q hq hle htyped
    have hheld := htwo.2 ⟨q, hq, htyped, by omega⟩
    omega
  · intro hnone
    have hnot : ¬ 2 ≤ (heldBefore brought p).get key := by
      intro hle
      obtain ⟨q, hq, htyped, hle'⟩ := htwo.1 hle
      exact hnone q hq (by omega) htyped
    omega

/-- What a poll reports of one key, by the count that it finds. -/
theorem filter_reported (p : Nat) :
    (reported brought p).filter (KeyEvent.concerns (byteOf key)) =
      (if (heldBefore brought p).get key = 1 then [.released (byteOf key)] else []) ++
        if typedIn key (brought p) && (heldBefore brought p).get key - 1 == 0 then
          [.pressed (byteOf key)] else [] :=
  filter_answer _ key (brought p)

/-- **When a key is released.** -/
theorem released_mem_reported_iff (p : Nat) :
    .released (byteOf key) ∈ reported brought p ↔
      ∃ q, q + 6 = p ∧ typedIn key (brought q) = true ∧
        ∀ r, q < r → r < p → ¬ typedIn key (brought r) = true := by
  have hmem : .released (byteOf key) ∈ reported brought p ↔
      .released (byteOf key) ∈ (reported brought p).filter (KeyEvent.concerns (byteOf key)) := by
    simp [KeyEvent.concerns]
  rw [← heldBefore_eq_one_iff, hmem, filter_reported]
  simp

/-- **When a key is pressed.** -/
theorem pressed_mem_reported_iff (p : Nat) :
    .pressed (byteOf key) ∈ reported brought p ↔
      typedIn key (brought p) = true ∧
        ∀ q < p, p ≤ q + 5 → ¬ typedIn key (brought q) = true := by
  have hmem : .pressed (byteOf key) ∈ reported brought p ↔
      .pressed (byteOf key) ∈ (reported brought p).filter (KeyEvent.concerns (byteOf key)) := by
    simp [KeyEvent.concerns]
  rw [← heldBefore_le_one_iff, hmem, filter_reported]
  simp

/-- A poll reports nothing of a key twice. -/
theorem count_reported_le (p : Nat) {event : KeyEvent}
    (hconcerns : event.concerns (byteOf key) = true) :
    (reported brought p).count event ≤ 1 := by
  rw [← List.count_filter hconcerns, filter_reported]
  cases event with
  | pressed byte =>
      rw [List.count_append, List.count_eq_zero_of_not_mem (by split <;> simp), Nat.zero_add]
      split
      · exact List.count_le_length
      · exact Nat.zero_le 1
  | released byte =>
      rw [List.count_append, Nat.add_comm, List.count_eq_zero_of_not_mem (by split <;> simp),
        Nat.zero_add]
      split
      · exact List.count_le_length
      · exact Nat.zero_le 1
  | quit => cases hconcerns

end Polls

/-! ### Presses and releases in turn -/

/-- A press or a release of a key, whichever has its turn. -/
def turn (byte : UInt8) (i : Nat) : KeyEvent :=
  if i % 2 = 0 then .pressed byte else .released byte

theorem turn_of_even {byte : UInt8} {i : Nat} (h : i % 2 = 0) : turn byte i = .pressed byte :=
  if_pos h

theorem turn_of_odd {byte : UInt8} {i : Nat} (h : i % 2 = 1) : turn byte i = .released byte :=
  if_neg (by omega)

/-- A press of a key, a release, a press, and so on. -/
def Alternates (byte : UInt8) (events : List KeyEvent) : Prop :=
  events = (List.range events.length).map (turn byte)

/-- A key was pressed and released in turn, and now it is held or not. -/
structure InTurn (byte : UInt8) (held : Bool) (events : List KeyEvent) : Prop where
  alternates : Alternates byte events
  parity : events.length % 2 = held.toNat

namespace InTurn

variable {byte : UInt8} {events : List KeyEvent}

theorem concat {held : Bool} (h : InTurn byte held events) :
    InTurn byte (!held) (events ++ [turn byte events.length]) := by
  refine ⟨?_, ?_⟩
  · rw [Alternates, List.length_append, List.length_singleton, List.range_succ, List.map_append,
      ← h.alternates]
    rfl
  · have hparity := h.parity
    rw [List.length_append, List.length_singleton]
    cases held <;> simp only [Bool.toNat_false, Bool.toNat_true, Bool.not_false, Bool.not_true]
      at hparity ⊢ <;> omega

theorem press (h : InTurn byte false events) : InTurn byte true (events ++ [.pressed byte]) := by
  have hnext := h.concat
  rw [turn_of_even h.parity] at hnext
  exact hnext

theorem release (h : InTurn byte true events) :
    InTurn byte false (events ++ [.released byte]) := by
  have hnext := h.concat
  rw [turn_of_odd h.parity] at hnext
  exact hnext

/-- What a poll reports of a key keeps its turns, by the count that it finds. -/
theorem poll {count : Nat} (h : InTurn byte (decide (0 < count)) events) (typed : Bool) :
    InTurn byte (decide (0 < if typed then holdPolls else count - 1))
      (events ++ ((if count = 1 then [.released byte] else []) ++
        if typed && count - 1 == 0 then [.pressed byte] else [])) := by
  match count, typed with
  | 0, false => simpa using h
  | 0, true => simpa [holdPolls] using h.press
  | 1, false => simpa using h.release
  | 1, true => simpa [holdPolls] using h.release.press
  | _ + 2, false => simpa using h
  | _ + 2, true => simpa [holdPolls] using h

end InTurn

/-- **The events of a key alternate**, over any number of polls, and the key is held if the last of
them was a press. -/
theorem inTurn_reported (brought : Nat → List TerminalEvent) (key : Fin 16) (n : Nat) :
    InTurn (byteOf key) (decide (0 < (heldBefore brought n).get key))
      (((List.range n).flatMap (reported brought)).filter
        (KeyEvent.concerns (byteOf key))) := by
  induction n with
  | zero =>
      rw [get_heldBefore_zero]
      exact ⟨rfl, rfl⟩
  | succ n ih =>
      rw [List.range_succ, List.flatMap_append, List.filter_append, List.flatMap_singleton,
        filter_reported, heldBefore, get_answer]
      exact ih.poll (typedIn key (brought n))

/-! ### Polls of a keyboard -/

/-- Polls of a keyboard in a row.  Whatever happens between them, it happens to what was typed and
not yet read. -/
def polled (k : Keyboard) (waiting : Nat → Typeahead) : Nat → Polled Keyboard
  | 0 => { k with ahead := waiting 0 }.poll
  | p + 1 => { (k.polled waiting p).device with ahead := waiting (p + 1) }.poll

/-- A keyboard that is listened to reports the answers to what its looks bring. -/
theorem polled_events (k : Keyboard) (waiting : Nat → Typeahead) (p : Nat) :
    (k.listen.polled waiting p).events = .ok (reported (fun p => (waiting p).look.1) p) ∧
      (k.listen.polled waiting p).device.held =
        heldBefore (fun p => (waiting p).look.1) (p + 1) := by
  induction p with
  | zero => exact ⟨rfl, rfl⟩
  | succ p ih =>
      obtain ⟨-, hheld⟩ := ih
      simp only [polled, poll, hheld]
      exact ⟨rfl, rfl⟩

/-- **The protocol of a key.**  Let any lists of events be brought, one to each poll.  Looks at a
terminal may bring these lists, and whenever they do, a keyboard that is listened to and polled
reports what is said here.

A key is typed by its character, in either case, but not by the `c` that quits, and every key can be
typed.  The events of a key, in the order in which they are reported, are a press, a release, a
press, and so on.  A poll reports the release of the key exactly if the key was typed six polls
before and not since, and its press exactly if the key is typed and was not typed in the five polls
before; and it does so once.  All releases of a poll come first. -/
theorem hold_of_polls (k : Keyboard) (brought : Nat → List TerminalEvent) (key : Fin 16) :
    let typed := fun p => typedIn key (brought p) = true
    let events := reported brought
    (∃ waiting : Nat → Typeahead, ∀ p, (waiting p).look.1 = brought p) ∧
      (∀ waiting : Nat → Typeahead, (∀ p, (waiting p).look.1 = brought p) →
        ∀ p, (k.listen.polled waiting p).events = .ok (events p)) ∧
      (∀ p, typed p ↔ ∃ c control, .char c control ∈ brought p ∧
        padKey? c = some key ∧ ¬ (c = 'c' ∧ control = true)) ∧
      (∀ c, padKey? c = some key ↔ c.toLower = layout.get key) ∧ (∃ c, padKey? c = some key) ∧
      (∀ n, Alternates (byteOf key)
        (((List.range n).flatMap events).filter (KeyEvent.concerns (byteOf key)))) ∧
      (∀ p, (.released (byteOf key) ∈ events p ↔
          ∃ q, q + 6 = p ∧ typed q ∧ ∀ r, q < r → r < p → ¬ typed r) ∧
        (events p).count (.released (byteOf key)) ≤ 1) ∧
      (∀ p, (.pressed (byteOf key) ∈ events p ↔
          typed p ∧ ∀ q < p, p ≤ q + 5 → ¬ typed q) ∧
        (events p).count (.pressed (byteOf key)) ≤ 1) ∧
      ∀ p, ∃ releases others, events p = releases ++ others ∧
        (∀ event ∈ releases, ∃ key, event = .released (byteOf key)) ∧
        ∀ event ∈ others, ∀ byte, event ≠ .released byte := by
  refine ⟨Classical.skolem.1 fun p => Typeahead.exists_look (brought p), ?_, fun p => typedIn_iff,
    fun c => padKey?_eq_some_iff, exists_padKey key, fun n => ?_, fun p => ⟨?_, ?_⟩,
    fun p => ⟨?_, ?_⟩, fun p => ?_⟩
  · intro waiting hlooks p
    rw [(polled_events k waiting p).1, funext hlooks]
  · exact (inTurn_reported _ key n).alternates
  · exact released_mem_reported_iff _ key p
  · exact count_reported_le _ key p (by simp [KeyEvent.concerns])
  · exact pressed_mem_reported_iff _ key p
  · exact count_reported_le _ key p (by simp [KeyEvent.concerns])
  · exact releases_first _ _

/-- A `w` is typed, and three polls later a `W`. -/
def typedTwice : Nat → List TerminalEvent
  | 0 => [.char 'w' false]
  | 3 => [.char 'W' false]
  | _ => []

/-- The key that both stand for is pressed at the first, held on by the second, and let go six polls
after it. -/
theorem hold_typedTwice :
    ∃ waiting : Nat → Typeahead, (∀ p, (waiting p).look.1 = typedTwice p) ∧
      ∀ p, ∃ events, (idle.listen.polled waiting p).events = .ok events ∧
        (.pressed 5 ∈ events ↔ p = 0) ∧ (.released 5 ∈ events ↔ p = 9) := by
  obtain ⟨⟨waiting, hlooks⟩, hpolls, -, -, -, -, hreleased, hpressed, -⟩ :=
    hold_of_polls idle typedTwice 5
  have htyped : ∀ p, typedIn 5 (typedTwice p) = true ↔ p = 0 ∨ p = 3 := by
    intro p
    match p with
    | 0 | 3 => decide
    | 1 | 2 | p + 4 => simp [typedTwice, typedIn]
  simp only [htyped] at hreleased hpressed
  refine ⟨waiting, hlooks, fun p => ⟨_, hpolls waiting hlooks p, ?_, ?_⟩⟩
  · refine (hpressed p).1.trans ⟨?_, ?_⟩
    · rintro ⟨rfl | rfl, hnone⟩
      · rfl
      · exact absurd (.inl rfl) (hnone 0 (by omega) (by omega))
    · rintro rfl
      exact ⟨.inl rfl, by omega⟩
  · refine (hreleased p).1.trans ⟨?_, ?_⟩
    · rintro ⟨q, rfl, rfl | rfl, hnone⟩
      · exact absurd (.inr rfl) (hnone 3 (by omega) (by omega))
      · rfl
    · rintro rfl
      exact ⟨3, rfl, .inr rfl, by omega⟩

end Keyboard

end Chip8
