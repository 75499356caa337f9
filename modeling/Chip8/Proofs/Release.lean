/-
**No key is stuck.**

A terminal never tells that a key was let go, so its keyboard reports the release of each key some
polls after the key was typed.  A good deal can come between the report and the pad.  A press that
ends a wait does not reach the pad.  Somebody leaves, and the rest of the answer is dropped.  A frame
fails, the run is over, the machine is reset, and the next run begins with the same keyboard.

What saves the pad is the order of an answer: its releases come first, and nothing that drops a part
of an answer comes before them.  So whenever an answer has been handed over, each key that is down on
the pad has a count at the keyboard that has not run out, and with it a release to come.  Only in the
middle of an answer this may fail.  And a count is six at most, so that a key which is not typed any
more is up six polls later.

Main definitions:

* `Chip8.Typist` — a keyboard with all that will be typed, at any poll anything;
* `Chip8.Console.runMoments` — the moments of a run: when the events of a frame have been handed over,
  and when a frame or the run is over;
* `Chip8.Episode` — what is done with a machine whose runs all listen to one keyboard, with
  `Chip8.Console.momentsAll`;
* `Chip8.Keypad.BackedBy` — a key that is down has a count that has not run out;
* `Chip8.Console.Accounted` — **the invariant**: this, and the counts are those that the polls made.

Main results:

* `Chip8.Typist.Follows.count` — a count that has not run out, and what was typed;
* `Chip8.Keypad.BackedBy.handle` — handing over an answer keeps the pad backed;
* `Chip8.Console.Accounted.handed`, `Chip8.Console.Accounted.play`, `Chip8.Console.Accounted.run`,
  `Chip8.Console.Accounted.of_mem_momentsAll` — a poll, frames in a row, a run and any number of runs
  keep the invariant;
* `Chip8.Console.noKeyStuck` — **no key is stuck**.
-/
import Chip8.Proofs.Hold
import Chip8.Proofs.Playing

set_option relaxedAutoImplicit false
set_option autoImplicit false

namespace Chip8

/-! ### A keyboard at which somebody types -/

/-- A keyboard with what waits to be read at each of its polls. -/
structure Typist where
  keyboard : Keyboard
  /-- How many polls there have been. -/
  polls : Nat
  /-- What waits to be read at a poll, counted from zero. -/
  waiting : Nat → Typeahead

namespace Typist

open Keyboard (heldBefore)

/-- A keyboard that somebody begins to listen to. -/
def new (k : Keyboard) (waiting : Nat → Typeahead) : Typist :=
  ⟨k.listen, 0, waiting⟩

/-- A poll of the keyboard, when it is the turn of what waits. -/
def poll (t : Typist) : Polled Typist :=
  let polled := { t.keyboard with ahead := t.waiting t.polls }.poll
  ⟨polled.events, ⟨polled.device, t.polls + 1, t.waiting⟩, polled.log⟩

instance : KeyDevice Typist where
  poll := poll

/-- The keyboard after a number of polls whose answers nobody heeds. -/
def unheeded (t : Typist) : Nat → Typist
  | 0 => t
  | n + 1 => (t.unheeded n).poll.device

/-- The keyboard has been polled from the beginning on, and what is held is what the polls made
it. -/
structure Follows (waiting : Nat → Typeahead) (t : Typist) : Prop where
  typed : t.waiting = waiting
  held : t.keyboard.held = heldBefore (fun p => (waiting p).look.1) t.polls

variable {waiting : Nat → Typeahead}

theorem follows_new (k : Keyboard) (waiting : Nat → Typeahead) : (new k waiting).Follows waiting :=
  ⟨rfl, rfl⟩

theorem Follows.poll {t : Typist} (h : t.Follows waiting) : t.poll.device.Follows waiting := by
  obtain ⟨rfl, hheld⟩ := h
  refine ⟨rfl, ?_⟩
  simp only [Typist.poll, Keyboard.poll, hheld]
  rfl

/-- At most six polls are to go, and none if the key was not typed in the last six. -/
theorem Follows.count {t : Typist} (h : t.Follows waiting) (key : Fin 16) :
    t.keyboard.held.get key ≤ 6 ∧
      (0 < t.keyboard.held.get key →
        ∃ q < t.polls, t.polls ≤ q + 6 ∧ Keyboard.typedIn key (waiting q).look.1 = true) := by
  rw [h.held]
  refine ⟨?_, fun hpos => ?_⟩
  · -- for seven polls to go, the key would have to be typed in a poll to come
    have hseven := Keyboard.le_heldBefore_iff (fun p => (waiting p).look.1) key
      (Nat.succ_pos 6) t.polls
    by_contra hmany
    obtain ⟨q, hq, -, hle⟩ := hseven.1 (by omega)
    omega
  · have hone := Keyboard.le_heldBefore_iff (fun p => (waiting p).look.1) key Nat.one_pos t.polls
    obtain ⟨q, hq, htyped, hle⟩ := hone.1 hpos
    exact ⟨q, hq, by omega, htyped⟩

theorem Follows.unheeded {t : Typist} (h : t.Follows waiting) (n : Nat) :
    (t.unheeded n).Follows waiting := by
  induction n with
  | zero => exact h
  | succ n ih => exact ih.poll

end Typist

/-! ### The pad and the counts -/

namespace Keypad

/-- Each key that is down is one of the pad's, with a count that has not run out. -/
def BackedBy (pad : Keypad) (held : Vector Nat 16) : Prop :=
  ∀ byte, pad.isPressed byte = true → ∃ key, byte = Keyboard.byteOf key ∧ 0 < held.get key

theorem backedBy_new (held : Vector Nat 16) : new.BackedBy held := by
  intro byte hdown
  rw [isPressed_new] at hdown
  cases hdown

/-- A pad with no other key down is backed as well. -/
theorem BackedBy.mono {pad pad' : Keypad} {held : Vector Nat 16} (h : pad.BackedBy held)
    (hle : ∀ byte, pad'.isPressed byte = true → pad.isPressed byte = true) : pad'.BackedBy held :=
  fun byte hdown => h byte (hle byte hdown)

end Keypad

namespace Machine

variable {δ σ : Type}

/-- A key press puts this key down and no other one. -/
theorem isPressed_setKey {m : Machine δ σ} {key byte : UInt8}
    (h : (m.setKey key).2.cpu.keypad.isPressed byte = true) :
    m.cpu.keypad.isPressed byte = true ∨ byte = key := by
  cases hstate : m.state with
  | waitingForKey register =>
      simp only [setKey, hstate, start_cpu] at h
      exact .inl h
  | stopped | running | halted word =>
      simp only [setKey, hstate, Keypad.isPressed_press, Bool.or_eq_true, beq_iff_eq] at h
      exact h.symm.imp_right Eq.symm

theorem isPressed_unsetKey {m : Machine δ σ} {key byte : UInt8}
    (h : (m.unsetKey key).cpu.keypad.isPressed byte = true) :
    m.cpu.keypad.isPressed byte = true ∧ byte ≠ key := by
  simp only [unsetKey, Keypad.isPressed_release, Bool.and_eq_true, bne_iff_ne, ne_eq] at h
  exact ⟨h.2, Ne.symm h.1⟩

/-- A key that is down after keys were let up was down before and is none of them. -/
theorem isPressed_unsetKeys {keys : List UInt8} {m : Machine δ σ} {byte : UInt8}
    (h : (keys.foldl unsetKey m).cpu.keypad.isPressed byte = true) :
    m.cpu.keypad.isPressed byte = true ∧ byte ∉ keys := by
  induction keys generalizing m with
  | nil => exact ⟨h, List.not_mem_nil⟩
  | cons key keys ih =>
      obtain ⟨hdown, hrest⟩ := ih h
      obtain ⟨hbefore, hne⟩ := isPressed_unsetKey hdown
      exact ⟨hbefore, List.not_mem_cons_of_ne_of_not_mem hne hrest⟩

end Machine

namespace Console

variable {δ σ κ ι : Type}

/-! ### Handing over an answer -/

/-- Releases are all handed over, and then what follows them. -/
theorem handle_releases (frames : Nat) (keys : List UInt8) (others : List KeyEvent)
    (m : Machine δ σ) :
    handle frames (keys.map KeyEvent.released ++ others) m =
      handle frames others (keys.foldl Machine.unsetKey m) := by
  induction keys generalizing m with
  | nil => rfl
  | cons key keys ih => exact ih (m.unsetKey key)

/-- A key that is down after events were handed over was down before, or one of them pressed it. -/
theorem isPressed_handle {frames : Nat} {events : List KeyEvent} {m : Machine δ σ} {byte : UInt8}
    (h : (handle frames events m).2.cpu.keypad.isPressed byte = true) :
    m.cpu.keypad.isPressed byte = true ∨ .pressed byte ∈ events := by
  induction events generalizing m with
  | nil => exact .inl h
  | cons event events ih =>
      cases event with
      | pressed key =>
          have hfirst : (m.setKey key).2.cpu.keypad.isPressed byte = true →
              m.cpu.keypad.isPressed byte = true ∨ .pressed byte ∈ .pressed key :: events := by
            intro hdown
            obtain hbefore | rfl := Machine.isPressed_setKey hdown
            · exact .inl hbefore
            · exact .inr (List.mem_cons_self ..)
          rcases hset : m.setKey key with ⟨e | ⟨⟩, m₁⟩
          · -- the press failed, and the events that follow are dropped
            simp only [handle, hset] at h
            rw [hset] at hfirst
            exact hfirst h
          · simp only [handle, hset] at h
            rw [hset] at hfirst
            obtain hdown | hmem := ih h
            · exact hfirst hdown
            · exact .inr (List.mem_cons_of_mem _ hmem)
      | released key =>
          obtain hdown | hmem := ih h
          · exact .inl (Machine.isPressed_unsetKey hdown).1
          · exact .inr (List.mem_cons_of_mem _ hmem)
      | quit =>
          rw [handle, Machine.keypad_stop] at h
          exact .inl h

end Console

namespace Keyboard

/-- A poll presses keys of the pad only, those that are typed. -/
theorem typed_of_pressed_mem {held : Vector Nat 16} {brought : List TerminalEvent} {byte : UInt8}
    (h : .pressed byte ∈ (strikeAll held brought).1) :
    ∃ key, byte = byteOf key ∧ typedIn key brought = true := by
  induction brought generalizing held with
  | nil => exact absurd h List.not_mem_nil
  | cons event brought ih =>
      have hmem : .pressed byte ∈ (strike held event).1 ++
          (strikeAll (strike held event).2.1 brought).1 := h
      rcases List.mem_append.1 hmem with hfirst | hrest
      · obtain ⟨typed, htypes, hstrike⟩ | ⟨-, -, hnone | hquits⟩ := strike_cases held event
        · rw [hstrike] at hfirst
          split at hfirst
          · rw [List.mem_singleton] at hfirst
            obtain rfl := KeyEvent.pressed.inj hfirst
            exact ⟨typed, rfl, by simp [typedIn, htypes]⟩
          · exact absurd hfirst List.not_mem_nil
        · rw [hnone] at hfirst
          exact absurd hfirst List.not_mem_nil
        · rw [hquits] at hfirst
          simp at hfirst
      · obtain ⟨key, hkey, htyped⟩ := ih hrest
        refine ⟨key, hkey, ?_⟩
        simp only [typedIn, List.any_cons, Bool.or_eq_true]
        exact .inr htyped

end Keyboard

/-- **Handing over an answer keeps the invariant.**  The releases of the answer are handed over
whatever comes after them, and with each press that reaches the pad the count begins anew. -/
theorem Keypad.BackedBy.handle {δ σ : Type} {m : Machine δ σ} {held : Vector Nat 16}
    (h : m.cpu.keypad.BackedBy held) (frames : Nat) (brought : List TerminalEvent) :
    (Console.handle frames (Keyboard.answer held brought).1 m).2.cpu.keypad.BackedBy
      (Keyboard.answer held brought).2.1 := by
  intro byte hdown
  have hanswer : (Keyboard.answer held brought).1 =
      ((Keyboard.padKeys.filter fun key => held.get key == 1).map Keyboard.byteOf).map
        KeyEvent.released ++ (Keyboard.strikeAll (Keyboard.age held).2 brought).1 := by
    rw [List.map_map]
    rfl
  rw [hanswer, Console.handle_releases] at hdown
  obtain hbefore | hpressed := Console.isPressed_handle hdown
  · -- the key was down and is not let go, so there was more than one poll to go
    obtain ⟨hbefore, hkept⟩ := Machine.isPressed_unsetKeys hbefore
    obtain ⟨key, rfl, hpos⟩ := h byte hbefore
    have hne : held.get key ≠ 1 := fun hone => hkept
      (List.mem_map_of_mem (List.mem_filter.2 ⟨List.mem_finRange key, beq_iff_eq.2 hone⟩))
    refine ⟨key, rfl, ?_⟩
    rw [Keyboard.get_answer]
    split
    · exact Nat.succ_pos 5
    · omega
  · -- the key was typed, so the count begins anew, whether or not the press came through
    obtain ⟨key, rfl, htyped⟩ := Keyboard.typed_of_pressed_mem hpressed
    refine ⟨key, rfl, ?_⟩
    rw [Keyboard.get_answer, if_pos htyped]
    exact Nat.succ_pos 5

/-! ### A run, moment by moment -/

namespace Console

section Moments

variable {δ σ κ ι : Type} [FrameClock κ] [KeyDevice ι]

/-- The console in a frame, when the events of the frame have been handed over. -/
def handed (frames : Nat) (c : Console δ σ κ ι) : Console δ σ κ ι :=
  let polled := KeyDevice.poll c.keys
  let m :=
    match polled.events with
    | .error _ => c.noted
    | .ok events => (handle frames events c.noted).2
  ⟨m, FrameClock.wait c.clock, polled.device⟩

variable [DisplayDevice δ] [SoundDevice σ]

/-- What comes after the events of a frame does not touch the pad. -/
theorem frame_keypad (frames : Nat) (c : Console δ σ κ ι) :
    (c.frame frames).2.machine.cpu.keypad = (c.handed frames).machine.cpu.keypad := by
  have hnoted : c.machine.noteAll (KeyDevice.poll c.keys).log = c.noted := rfl
  cases hevents : (KeyDevice.poll c.keys).events with
  | error failure => simp only [frame, handed, hevents, hnoted]
  | ok events =>
      rcases hhandled : handle frames events c.noted with ⟨_ | _ | e, m⟩
      · have htick := m.tick_keypad
        rcases hticked : m.tick with ⟨e | ⟨⟩, m₁⟩
        · rw [hticked] at htick
          simpa only [frame, handed, hevents, hnoted, hhandled, hticked] using htick
        · rw [hticked] at htick
          simpa only [frame, handed, hevents, hnoted, hhandled, hticked] using htick
      · simp only [frame, handed, hevents, hnoted, hhandled]
      · simp only [frame, handed, hevents, hnoted, hhandled]

/-- The moments of up to `n` frames: when the events of a frame have been handed over, and when the
frame is over. -/
def playMoments (frames : Nat) : Nat → Console δ σ κ ι → List (Console δ σ κ ι)
  | 0, _ => []
  | n + 1, c =>
    c.handed frames :: (c.frame frames).2 ::
      match c.frame frames with
      | (.completed, c) => playMoments (frames + 1) n c
      | (.quit, _) | (.failed _, _) => []

/-- The moments of a run: those of its frames, and when the run is over. -/
def runMoments (limit : Option Nat) (c : Console δ σ κ ι) : List (Console δ σ κ ι) :=
  (match c.machine.start with
    | (.error _, _) => []
    | (.ok (), m) => playMoments 0 (limit.getD frameCeiling) { c with machine := m }) ++
    [(run limit c).2]

end Moments

/-! ### The invariant of a run -/

section Accounted

variable {δ σ κ : Type} {waiting : Nat → Typeahead}

/-- The keyboard holds what was typed, and each key that is down on the pad has polls to go. -/
structure Accounted (waiting : Nat → Typeahead) (c : Console δ σ κ Typist) : Prop where
  follows : c.keys.Follows waiting
  backed : c.machine.cpu.keypad.BackedBy c.keys.keyboard.held

namespace Accounted

variable {c : Console δ σ κ Typist}

theorem of_keypad (h : c.Accounted waiting) {c' : Console δ σ κ Typist} (hkeys : c'.keys = c.keys)
    (hpad : c'.machine.cpu.keypad = c.machine.cpu.keypad) : c'.Accounted waiting := by
  refine ⟨?_, ?_⟩
  · rw [hkeys]
    exact h.follows
  · rw [hkeys, hpad]
    exact h.backed

variable [FrameClock κ]

/-- **What one poll keeps.** -/
theorem handed (h : c.Accounted waiting) (frames : Nat) : (c.handed frames).Accounted waiting :=
  ⟨h.follows.poll, h.backed.handle (m := c.noted) frames (c.keys.waiting c.keys.polls).look.1⟩

variable [DisplayDevice δ] [SoundDevice σ]

theorem frame (h : c.Accounted waiting) (frames : Nat) : (c.frame frames).2.Accounted waiting :=
  (h.handed frames).of_keypad (frame_devices frames c).2 (frame_keypad frames c)

/-- **What a number of frames keeps**, in the end and on the way. -/
theorem play (h : c.Accounted waiting) (n frames : Nat) :
    (play frames n c).2.Accounted waiting ∧
      ∀ moment ∈ playMoments frames n c, moment.Accounted waiting := by
  -- on the frames that are left: one that does not complete is the last of them
  induction n generalizing frames c with
  | zero => exact ⟨h, fun _ hmem => absurd hmem List.not_mem_nil⟩
  | succ n ih =>
      have hframe := h.frame frames
      rw [play_succ, playMoments]
      rcases hplayed : c.frame frames with ⟨_ | _ | e, c₁⟩
      · rw [hplayed] at hframe
        obtain ⟨hend, hlater⟩ := ih hframe (frames + 1)
        exact ⟨hend, List.forall_mem_cons.2 ⟨h.handed frames,
          List.forall_mem_cons.2 ⟨hframe, hlater⟩⟩⟩
      · rw [hplayed] at hframe
        exact ⟨hframe, by simpa using ⟨h.handed frames, hframe⟩⟩
      · rw [hplayed] at hframe
        exact ⟨hframe, by simpa using ⟨h.handed frames, hframe⟩⟩

/-- **What a run keeps**, in the end and on the way. -/
theorem run (h : c.Accounted waiting) (limit : Option Nat) :
    (run limit c).2.Accounted waiting ∧
      ∀ moment ∈ runMoments limit c, moment.Accounted waiting := by
  have hcpu := c.machine.start_cpu
  unfold runMoments Console.run
  generalize limit.getD frameCeiling = n
  rcases hstart : c.machine.start with ⟨e | ⟨⟩, m⟩
  · rw [hstart] at hcpu
    have hfails : ({ c with machine := m } : Console δ σ κ Typist).Accounted waiting :=
      h.of_keypad rfl (congrArg Cpu.keypad hcpu)
    exact ⟨hfails, List.forall_mem_singleton.2 hfails⟩
  · rw [hstart] at hcpu
    have hstarted : ({ c with machine := m } : Console δ σ κ Typist).Accounted waiting :=
      h.of_keypad rfl (congrArg Cpu.keypad hcpu)
    obtain ⟨hplayed, hway⟩ := hstarted.play n 0
    rcases hplay : Console.play 0 n { c with machine := m } with ⟨ending, c₁⟩
    rw [hplay] at hplayed
    have hstopped : ({ c₁ with machine := c₁.machine.stop } : Console δ σ κ Typist).Accounted
        waiting := hplayed.of_keypad rfl c₁.machine.keypad_stop
    cases ending with
    | completed =>
        simp only [hplay]
        exact ⟨hstopped, List.forall_mem_append.2 ⟨hway, List.forall_mem_singleton.2 hstopped⟩⟩
    | quit | failed e =>
        simp only [hplay]
        exact ⟨hplayed, List.forall_mem_append.2 ⟨hway, List.forall_mem_singleton.2 hplayed⟩⟩

end Accounted

end Accounted

end Console

/-! ### Runs with one keyboard -/

/-- What is done with a machine whose runs all listen to one keyboard. -/
inductive Episode (δ κ : Type) where
  /-- The machine runs, up to a limit of frames. -/
  | run (limit : Option Nat) (clock : κ)
  /-- Something is done to the machine between its runs. -/
  | act (action : Action δ)
  /-- The processor is changed from outside, but for its pad. -/
  | alter (cpu : Cpu)

/-- An action that neither presses keys nor lets them up one by one. -/
def Action.LeavesKeys {δ : Type} : Action δ → Prop
  | .setKey _ | .unsetKey _ | .alter _ => False
  | .attach _ | .start | .stop | .reset | .load _ | .loadFrom _ | .tick | .note _ => True

/-- An episode in which key events come from the keyboard only. -/
def Episode.LeavesKeys {δ κ : Type} : Episode δ κ → Prop
  | .act action => action.LeavesKeys
  | .run _ _ | .alter _ => True

namespace Machine

variable {δ σ : Type} [DisplayDevice δ] [SoundDevice σ]

/-- No key is down afterwards that was not before. -/
theorem isPressed_act {m : Machine δ σ} {action : Action δ} (h : action.LeavesKeys) {byte : UInt8}
    (hdown : (m.act action).cpu.keypad.isPressed byte = true) :
    m.cpu.keypad.isPressed byte = true := by
  cases action with
  | start =>
      rw [act, start_cpu] at hdown
      exact hdown
  | stop =>
      rw [act, keypad_stop] at hdown
      exact hdown
  | reset =>
      have hup : (m.act .reset).cpu.keypad.isPressed byte = false := Keypad.isPressed_new byte
      rw [hup] at hdown
      cases hdown
  | tick =>
      rw [act, tick_keypad] at hdown
      exact hdown
  | attach | load | loadFrom | note => exact hdown
  | setKey | unsetKey | alter => exact h.elim

end Machine

namespace Console

section Episodes

variable {δ σ κ ι : Type} [DisplayDevice δ] [SoundDevice σ] [FrameClock κ] [KeyDevice ι]

/-- The console after an episode. -/
def pass (c : Console δ σ κ ι) : Episode δ κ → Console δ σ κ ι
  | .run limit clock => (run limit { c with clock := clock }).2
  | .act action => { c with machine := c.machine.act action }
  | .alter cpu =>
    { c with machine := { c.machine with cpu := { cpu with keypad := c.machine.cpu.keypad } } }

/-- The moments of an episode: those of a run, or when the episode is over. -/
def moments (c : Console δ σ κ ι) : Episode δ κ → List (Console δ σ κ ι)
  | .run limit clock => runMoments limit { c with clock := clock }
  | .act action => [c.pass (.act action)]
  | .alter cpu => [c.pass (.alter cpu)]

/-- The moments of episodes in a row. -/
def momentsAll (c : Console δ σ κ ι) : List (Episode δ κ) → List (Console δ σ κ ι)
  | [] => []
  | episode :: episodes => c.moments episode ++ (c.pass episode).momentsAll episodes

end Episodes

section

variable {δ σ κ : Type} [DisplayDevice δ] [SoundDevice σ] [FrameClock κ]
variable {c : Console δ σ κ Typist} {waiting : Nat → Typeahead}

/-- **What an episode keeps**, in the end and on the way. -/
theorem Accounted.pass (h : c.Accounted waiting) {episode : Episode δ κ}
    (hleaves : episode.LeavesKeys) :
    (c.pass episode).Accounted waiting ∧ ∀ moment ∈ c.moments episode, moment.Accounted waiting := by
  cases episode with
  | run limit clock =>
      have hclock : ({ c with clock := clock } : Console δ σ κ Typist).Accounted waiting :=
        h.of_keypad rfl rfl
      exact hclock.run limit
  | act action =>
      have hend : (c.pass (.act action)).Accounted waiting :=
        ⟨h.follows, h.backed.mono fun _ => Machine.isPressed_act hleaves⟩
      exact ⟨hend, List.forall_mem_singleton.2 hend⟩
  | alter cpu =>
      have hend : (c.pass (.alter cpu)).Accounted waiting := h.of_keypad rfl rfl
      exact ⟨hend, List.forall_mem_singleton.2 hend⟩

theorem Accounted.of_mem_momentsAll (h : c.Accounted waiting) {episodes : List (Episode δ κ)}
    (hleaves : ∀ episode ∈ episodes, episode.LeavesKeys) :
    ∀ moment ∈ c.momentsAll episodes, moment.Accounted waiting := by
  induction episodes generalizing c with
  | nil => exact fun _ hmem => absurd hmem List.not_mem_nil
  | cons episode episodes ih =>
      obtain ⟨hfirst, hrest⟩ := List.forall_mem_cons.1 hleaves
      obtain ⟨hend, hway⟩ := h.pass hfirst
      exact List.forall_mem_append.2 ⟨hway, ih hend hrest⟩

open Keyboard (byteOf typedIn)

/-- **No key is stuck.**  Take a machine with no key down, and a keyboard that was polled for a while
or not at all.  Let the machine run any number of times, always listening to this keyboard, whatever
is typed, and let anything be done to it between the runs, but for pressing keys and letting them up.
Look at it when the events of a frame have been handed over, or a frame or a run is over, however
that went.  Each key that is down on the pad is one of the sixteen, with between one and six polls to
go at the keyboard.  And a key that was not typed in the last six polls is up. -/
theorem noKeyStuck (m : Machine δ σ) (hpad : m.cpu.keypad = .new) (k : Keyboard)
    (waiting : Nat → Typeahead) (unheeded : Nat) (clock : κ) {episodes : List (Episode δ κ)}
    (hleaves : ∀ episode ∈ episodes, episode.LeavesKeys) :
    ∀ moment ∈ momentsAll ⟨m, clock, (Typist.new k waiting).unheeded unheeded⟩ episodes,
      (∀ byte, moment.machine.cpu.keypad.isPressed byte = true →
        ∃ key, byte = byteOf key ∧ 1 ≤ moment.keys.keyboard.held.get key ∧
          moment.keys.keyboard.held.get key ≤ 6) ∧
      ∀ key, (∀ p < moment.keys.polls, moment.keys.polls ≤ p + 6 →
          ¬ typedIn key (waiting p).look.1 = true) →
        moment.machine.cpu.keypad.isPressed (byteOf key) = false := by
  have hbacked : m.cpu.keypad.BackedBy ((Typist.new k waiting).unheeded unheeded).keyboard.held := by
    rw [hpad]
    exact Keypad.backedBy_new _
  have hbegin : (⟨m, clock, (Typist.new k waiting).unheeded unheeded⟩ :
      Console δ σ κ Typist).Accounted waiting :=
    ⟨(Typist.follows_new k waiting).unheeded unheeded, hbacked⟩
  intro moment hmem
  obtain ⟨hfollows, hbacked⟩ := hbegin.of_mem_momentsAll hleaves moment hmem
  refine ⟨fun byte hdown => ?_, fun key huntyped => ?_⟩
  · obtain ⟨key, hkey, hpos⟩ := hbacked byte hdown
    exact ⟨key, hkey, hpos, (hfollows.count key).1⟩
  · rw [Bool.eq_false_iff]
    intro hdown
    obtain ⟨key', hkey, hpos⟩ := hbacked _ hdown
    obtain rfl := Keyboard.byteOf_inj.1 hkey
    obtain ⟨p, hp, hle, htyped⟩ := (hfollows.count key).2 hpos
    exact huntyped p hp hle htyped

/-- A key is typed, and two polls later somebody leaves in the middle of what is typed. -/
def leavingMidway (p : Nat) : Typeahead :=
  { Typeahead.empty with
    pending :=
      if p = 0 then [.event (.char 'q' false)]
      else if p = 2 then [.event .escape, .event (.char 'w' false)]
      else [] }

/-- A machine with a display, and a keyboard at which this is typed. -/
def leftMidway : Console PictureLog Mute FrameCount Typist :=
  ⟨(Machine.new Mute.mute { cyclesPerFrame := 1 } 0).attach PictureLog.new, ⟨0⟩,
    Typist.new .idle leavingMidway⟩

/-- A run that is left, and another one. -/
def leaveAndReturn : List (Episode PictureLog FrameCount) :=
  [.act (.load [0x12, 0x00]), .run (some 9) ⟨0⟩, .run (some 4) ⟨0⟩]

/-- The key is still down when the run is over, with four polls to go, and the next run lets it up.
The press after the wish to leave was dropped. -/
theorem noKeyStuck_leftMidway :
    leftMidway.machine.cpu.keypad = .new ∧ (∀ episode ∈ leaveAndReturn, episode.LeavesKeys) ∧
      ∃ left ∈ leftMidway.momentsAll leaveAndReturn,
        left.keys.polls = 3 ∧ left.machine.cpu.keypad.isPressed (byteOf 4) = true ∧
          left.keys.keyboard.held.get 4 = 4 ∧
          ∃ last ∈ leftMidway.momentsAll leaveAndReturn,
            last.keys.polls = 7 ∧ last.machine.cpu.keypad.isPressed (byteOf 4) = false := by
  have hleaves : ∀ episode ∈ leaveAndReturn, episode.LeavesKeys := by
    simp [leaveAndReturn, Episode.LeavesKeys, Action.LeavesKeys]
  obtain ⟨hleft, hlast, huntyped⟩ :
      ((leftMidway.momentsAll leaveAndReturn)[7]?.map fun moment =>
          (moment.keys.polls, moment.machine.cpu.keypad.isPressed (byteOf 4),
            moment.keys.keyboard.held.get 4)) = some (3, true, 4) ∧
        ((leftMidway.momentsAll leaveAndReturn)[16]?.map fun moment => moment.keys.polls) =
          some 7 ∧
        ∀ p < 7, 7 ≤ p + 6 → ¬ typedIn 4 (leavingMidway p).look.1 = true := by decide +kernel
  obtain ⟨left, hat, hfields⟩ := Option.map_eq_some_iff.1 hleft
  obtain ⟨last, hat', hpolls⟩ := Option.map_eq_some_iff.1 hlast
  simp only [Prod.mk.injEq] at hfields
  obtain ⟨hthree, hpressed, hcount⟩ := hfields
  have hmem := List.mem_of_getElem? hat'
  refine ⟨rfl, hleaves, left, List.mem_of_getElem? hat, hthree, hpressed, hcount, last, hmem,
    hpolls, ?_⟩
  have hstuck := noKeyStuck leftMidway.machine rfl .idle leavingMidway 0 ⟨0⟩ hleaves last hmem
  refine hstuck.2 4 ?_
  rw [hpolls]
  exact huntyped

end

end Console

end Chip8
