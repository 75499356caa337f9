/-
**A machine during a run.**

A run starts its machine, and from then on the machine is *up*: it has a display, and it runs or
waits for a key.  Key presses, releases and frames that succeed keep it so.  That rules out most of
what could go wrong between two frames.  Handing events to a machine that is up does not fail, so a
frame of a run ends in one of four ways: the source of keys fails, somebody asks to leave, the tick
fails, or the frame is completed.

A run that ends before its limit has completed some frames by then, and the next one did not
complete.

Main definitions:

* `Chip8.Machine.heed`, `Chip8.Machine.heedAll` — a machine takes note of what happens at the keys;
* `Chip8.Machine.Up` — a machine during a run;
* `Chip8.Console.FrameEnds` — the four ways in which a frame of a run ends.

Main results:

* `Chip8.Machine.start_cases`, `Chip8.Machine.Up.heedAll`, `Chip8.Machine.Up.tick` — what makes a
  machine be up, and what keeps it so;
* `Chip8.Console.frame_ends` — **a frame of a run ends in one of four ways**;
* `Chip8.Console.play_add` — frames are played in portions;
* `Chip8.Console.play_cases` — a run that ends early ends with its last frame;
* `Chip8.Console.run_of_completed`, `Chip8.Console.run_of_ended` — a run, by how its frames end.
-/
import Chip8.Proofs.Fault

set_option relaxedAutoImplicit false
set_option autoImplicit false

namespace Chip8

namespace Machine

variable {δ σ : Type}

/-! ### Taking note of the keys -/

/-- The machine after an event at the keys.  It has no part in somebody leaving. -/
def heed (m : Machine δ σ) : KeyEvent → Machine δ σ
  | .pressed key => (m.setKey key).2
  | .released key => m.unsetKey key
  | .quit => m

/-- The machine after events at the keys, in order. -/
def heedAll (m : Machine δ σ) (events : List KeyEvent) : Machine δ σ :=
  events.foldl heed m

@[simp] theorem heedAll_cons (m : Machine δ σ) (event : KeyEvent) (events : List KeyEvent) :
    m.heedAll (event :: events) = (m.heed event).heedAll events := rfl

/-! ### Up -/

/-- A machine that was started, and neither stopped nor halted since. -/
structure Up (m : Machine δ σ) : Prop where
  attached : m.display.isSome = true
  state : m.state = .running ∨ ∃ register, m.state = .waitingForKey register

namespace Up

variable {m : Machine δ σ}

theorem of_same {m' : Machine δ σ} (h : m.Up) (hstate : m'.state = m.state)
    (hdisplay : m'.display.isSome = m.display.isSome) : m'.Up :=
  ⟨hdisplay.trans h.attached, hstate ▸ h.state⟩

theorem ne_halted (h : m.Up) (word : UInt16) : m.state ≠ .halted word := by
  rcases h.state with hrunning | ⟨register, hwaiting⟩
  · simp [hrunning]
  · simp [hwaiting]

/-- A key press succeeds, and the machine stays up. -/
theorem setKey (h : m.Up) (key : UInt8) : (m.setKey key).1 = .ok () ∧ (m.setKey key).2.Up := by
  rcases h.state with hrunning | ⟨register, hwaiting⟩
  · rw [setKey_of_ne_waiting (by simp [hrunning])]
    exact ⟨rfl, h.of_same rfl rfl⟩
  · obtain ⟨hok, hrunning, hdisplay, -⟩ := setKey_of_waiting h.attached hwaiting key
    exact ⟨hok, hdisplay ▸ h.attached, .inl hrunning⟩

theorem heed (h : m.Up) (event : KeyEvent) : (m.heed event).Up := by
  cases event with
  | pressed key => exact (h.setKey key).2
  | released key => exact h.of_same rfl rfl
  | quit => exact h

theorem heedAll (h : m.Up) (events : List KeyEvent) : (m.heedAll events).Up := by
  induction events generalizing m with
  | nil => exact h
  | cons event events ih => exact ih (h.heed event)

/-- A frame that succeeds leaves the machine up: what would halt it is an error. -/
theorem tick [DisplayDevice δ] [SoundDevice σ] (h : m.Up) (hok : m.tick.1 = .ok ()) :
    m.tick.2.Up := by
  rcases m.tick_state with hsame | ⟨-, hinterrupted⟩
  · exact h.of_same hsame m.tick_isSome
  · refine ⟨m.tick_isSome.trans h.attached, ?_⟩
    cases hstate : m.tick.2.state with
    | waitingForKey register => exact .inr ⟨register, rfl⟩
    | halted word =>
        obtain ⟨e, herror⟩ := exists_error_of_halted (h.ne_halted word) hstate
        rw [hok] at herror
        cases herror
    | stopped | running =>
        rw [hstate] at hinterrupted
        cases hinterrupted

/-- Stopping leaves nothing but a wait for a key. -/
theorem stop_state (h : m.Up) :
    m.stop.state = .stopped ∨ ∃ register, m.stop.state = .waitingForKey register := by
  rcases h.state with hrunning | ⟨register, hwaiting⟩
  · exact .inl (stop_of_running (isRunning_iff.2 hrunning))
  · refine .inr ⟨register, ?_⟩
    rw [stop_of_ne_running (by simp [isRunning, hwaiting]), hwaiting]

end Up

/-- **A machine that starts is up**, and one that does not start stays as it is. -/
theorem start_cases (m : Machine δ σ) :
    m.start.1 = .ok () ∧ m.start.2.Up ∨ ∃ e, m.start = (.error e, m) := by
  cases hd : m.display with
  | none => exact .inr ⟨_, start_of_none hd⟩
  | some d =>
      have hattached : m.display.isSome = true := by rw [hd]; rfl
      have hdisplay : m.start.2.display.isSome = true := by rw [start_display, hattached]
      cases hstate : m.state with
      | stopped =>
          obtain ⟨hok, hrunning, -⟩ := start_of_isSome hattached (.inl hstate)
          exact .inl ⟨hok, hdisplay, .inl hrunning⟩
      | running =>
          obtain ⟨hok, hrunning, -⟩ := start_of_isSome hattached (.inr hstate)
          exact .inl ⟨hok, hdisplay, .inl hrunning⟩
      | waitingForKey register =>
          rw [start_of_waiting hattached hstate]
          exact .inl ⟨rfl, hattached, .inr ⟨register, hstate⟩⟩
      | halted word => exact .inr ⟨_, start_of_halted hattached hstate⟩

theorem Up.of_start {m : Machine δ σ} (h : m.start.1 = .ok ()) : m.start.2.Up := by
  rcases m.start_cases with ⟨-, hup⟩ | ⟨e, hfails⟩
  · exact hup
  · rw [hfails] at h
    cases h

end Machine

namespace Console

variable {δ σ κ ι : Type}

/-! ### Handing over events -/

/-- Events before anyone wishes to leave are handed over, one after the other. -/
theorem handle_append {m : Machine δ σ} (h : m.Up) (frames : Nat) {before : List KeyEvent}
    (hquit : .quit ∉ before) (rest : List KeyEvent) :
    handle frames (before ++ rest) m = handle frames rest (m.heedAll before) := by
  induction before generalizing m with
  | nil => rfl
  | cons event before ih =>
      obtain ⟨hne, hlater⟩ := List.ne_and_not_mem_of_not_mem_cons hquit
      cases event with
      | pressed key =>
          obtain ⟨hok, hup⟩ := h.setKey key
          rcases hset : m.setKey key with ⟨e | ⟨⟩, m₁⟩
          · rw [hset] at hok
            cases hok
          · rw [hset] at hup
            simp only [List.cons_append, handle, hset, Machine.heedAll_cons, Machine.heed]
            exact ih hup hlater
      | released key => exact ih (h.heed (.released key)) hlater
      | quit => exact absurd rfl hne

/-! ### A frame -/

section Frame

variable [KeyDevice ι]

/-- The machine with what the source of keys has to say when it is asked. -/
def noted (c : Console δ σ κ ι) : Machine δ σ :=
  c.machine.noteAll (KeyDevice.poll c.keys).log

variable [DisplayDevice δ] [SoundDevice σ]

/-- How a frame of a run ends, and the machine that it ends with. -/
inductive FrameEnds (frames : Nat) (c : Console δ σ κ ι) : Ending → Machine δ σ → Prop where
  | unasked {failure : IoFailure} (hevents : (KeyDevice.poll c.keys).events = .error failure) :
    FrameEnds frames c (.failed (.io failure)) c.noted
  | quits {before after : List KeyEvent}
    (hevents : (KeyDevice.poll c.keys).events = .ok (before ++ .quit :: after))
    (hquit : .quit ∉ before) :
    FrameEnds frames c .quit ((c.noted.heedAll before).note (.quitting frames)).stop
  | fails {events : List KeyEvent} {e : Error} {m : Machine δ σ}
    (hevents : (KeyDevice.poll c.keys).events = .ok events) (hquit : .quit ∉ events)
    (htick : (c.noted.heedAll events).tick = (.error e, m)) : FrameEnds frames c (.failed e) m
  | completes {events : List KeyEvent} {m : Machine δ σ}
    (hevents : (KeyDevice.poll c.keys).events = .ok events) (hquit : .quit ∉ events)
    (htick : (c.noted.heedAll events).tick = (.ok (), m)) : FrameEnds frames c .completed m

variable [FrameClock κ] {c : Console δ σ κ ι}

/-- **A frame of a run ends in one of four ways.** -/
theorem frame_ends (h : c.machine.Up) (frames : Nat) :
    FrameEnds frames c (c.frame frames).1 (c.frame frames).2.machine := by
  have hnoted : c.noted.Up := h.of_same rfl rfl
  have hmachine : c.machine.noteAll (KeyDevice.poll c.keys).log = c.noted := rfl
  cases hevents : (KeyDevice.poll c.keys).events with
  | error failure =>
      simp only [frame, hevents]
      exact .unasked hevents
  | ok events =>
      by_cases hquit : .quit ∈ events
      · obtain ⟨before, after, rfl, hbefore⟩ := List.eq_append_cons_of_mem hquit
        have hhandled := handle_append hnoted frames hbefore (.quit :: after)
        simp only [frame, hevents, hmachine, hhandled]
        exact .quits hevents hbefore
      · have hhandled := handle_append hnoted frames hquit []
        rw [List.append_nil] at hhandled
        rcases hticked : (c.noted.heedAll events).tick with ⟨e | ⟨⟩, m⟩
        · simp only [frame, hevents, hmachine, hhandled, handle, hticked]
          exact .fails hevents hquit hticked
        · simp only [frame, hevents, hmachine, hhandled, handle, hticked]
          exact .completes hevents hquit hticked

/-- However a frame ends, the clock was waited for once and the keys were asked once. -/
theorem frame_devices (frames : Nat) (c : Console δ σ κ ι) :
    (c.frame frames).2.clock = FrameClock.wait c.clock ∧
      (c.frame frames).2.keys = (KeyDevice.poll c.keys).device := by
  unfold frame
  simp only
  split
  · exact ⟨rfl, rfl⟩
  · split
    · split <;> exact ⟨rfl, rfl⟩
    · exact ⟨rfl, rfl⟩

/-- A completed frame leaves the machine up. -/
theorem frame_up (h : c.machine.Up) {frames : Nat} (hcompleted : (c.frame frames).1 = .completed) :
    (c.frame frames).2.machine.Up := by
  have hnoted : c.noted.Up := h.of_same rfl rfl
  have hends := frame_ends h frames
  rw [hcompleted] at hends
  generalize (c.frame frames).2.machine = m at hends ⊢
  cases hends with
  | @completes events _ hevents hquit htick =>
      have hup := (hnoted.heedAll events).tick (congrArg Prod.fst htick)
      rw [htick] at hup
      exact hup

end Frame

/-! ### Frames in a row -/

section Play

variable [DisplayDevice δ] [SoundDevice σ] [FrameClock κ] [KeyDevice ι]

variable {frames n : Nat} {c : Console δ σ κ ι}

theorem play_succ_of_completed (h : (c.frame frames).1 = .completed) :
    play frames (n + 1) c = play (frames + 1) n (c.frame frames).2 := by
  rw [play_succ]
  rcases hframe : c.frame frames with ⟨ending, c₁⟩
  rw [hframe] at h
  simp only at h
  rw [h]

theorem play_succ_of_ended (h : (c.frame frames).1 ≠ .completed) :
    play frames (n + 1) c = c.frame frames := by
  rw [play_succ]
  rcases hframe : c.frame frames with ⟨ending, c₁⟩
  rw [hframe] at h
  cases ending with
  | completed => exact absurd rfl h
  | quit => rfl
  | failed e => rfl

/-- **Frames are played in portions.**  The second portion starts where the first one ended. -/
theorem play_add {a : Nat} (h : (play frames a c).1 = .completed) (b : Nat) :
    play frames (a + b) c = play (frames + a) b (play frames a c).2 := by
  induction a generalizing frames c with
  | zero => simp
  | succ a ih =>
      by_cases hframe : (c.frame frames).1 = .completed
      · rw [play_succ_of_completed hframe] at h ⊢
        rw [Nat.add_right_comm, play_succ_of_completed hframe, ih h, Nat.add_right_comm,
          Nat.add_assoc frames a 1]
      · rw [play_succ_of_ended hframe] at h
        exact absurd h hframe

/-- **A run that ends early ends with its last frame**, the frames before it having been
completed. -/
theorem play_cases (frames n : Nat) (c : Console δ σ κ ι) :
    (play frames n c).1 = .completed ∨
      ∃ k, k < n ∧ (play frames k c).1 = .completed ∧
        ((play frames k c).2.frame (frames + k)).1 ≠ .completed ∧
        play frames n c = (play frames k c).2.frame (frames + k) := by
  induction n generalizing frames c with
  | zero => exact .inl rfl
  | succ n ih =>
      by_cases hframe : (c.frame frames).1 = .completed
      · rw [play_succ_of_completed hframe]
        rcases ih (frames + 1) (c.frame frames).2 with hcompleted | ⟨k, hk, hrest⟩
        · exact .inl hcompleted
        · refine .inr ⟨k + 1, Nat.succ_lt_succ hk, ?_⟩
          rw [play_succ_of_completed hframe, ← Nat.add_assoc, Nat.add_right_comm]
          exact hrest
      · -- the first frame is the last one
        exact .inr ⟨0, n.succ_pos, rfl, hframe, play_succ_of_ended hframe⟩

/-- Completed frames leave the machine up. -/
theorem play_up (h : c.machine.Up) (hcompleted : (play frames n c).1 = .completed) :
    (play frames n c).2.machine.Up := by
  induction n generalizing frames c with
  | zero => exact h
  | succ n ih =>
      by_cases hframe : (c.frame frames).1 = .completed
      · rw [play_succ_of_completed hframe] at hcompleted ⊢
        exact ih (frame_up h hframe) hcompleted
      · rw [play_succ_of_ended hframe] at hcompleted
        exact absurd hcompleted hframe

/-! ### A run -/

/-- The console with its machine started. -/
def started (c : Console δ σ κ ι) : Console δ σ κ ι :=
  { c with machine := c.machine.start.2 }

/-- A run that reaches its limit stops its machine. -/
theorem run_of_completed (limit : Option Nat) (hstart : c.machine.start.1 = .ok ())
    (hplay : (play 0 (limit.getD frameCeiling) c.started).1 = .completed) :
    run limit c = (.completed,
      { (play 0 (limit.getD frameCeiling) c.started).2 with
        machine := (play 0 (limit.getD frameCeiling) c.started).2.machine.stop }) := by
  unfold started at hplay ⊢
  unfold run
  generalize limit.getD frameCeiling = n at hplay ⊢
  rcases hstarted : c.machine.start with ⟨e | ⟨⟩, m⟩
  · rw [hstarted] at hstart
    cases hstart
  · rw [hstarted] at hplay
    rcases hplayed : play 0 n { c with machine := m } with ⟨ending, c₁⟩
    rw [hplayed] at hplay
    simp only at hplay
    subst hplay
    simp only [hplayed]

/-- A run that ends before its limit leaves its machine as it is. -/
theorem run_of_ended (limit : Option Nat) (hstart : c.machine.start.1 = .ok ())
    (hplay : (play 0 (limit.getD frameCeiling) c.started).1 ≠ .completed) :
    run limit c = play 0 (limit.getD frameCeiling) c.started := by
  unfold started at hplay ⊢
  unfold run
  generalize limit.getD frameCeiling = n at hplay ⊢
  rcases hstarted : c.machine.start with ⟨e | ⟨⟩, m⟩
  · rw [hstarted] at hstart
    cases hstart
  · rw [hstarted] at hplay
    rcases hplayed : play 0 n { c with machine := m } with ⟨ending, c₁⟩
    rw [hplayed] at hplay
    cases ending with
    | completed => exact absurd rfl hplay
    | quit => simp only [hplayed]
    | failed e => simp only [hplayed]

/-- A run that reaches its limit could start its machine, and completed its frames. -/
theorem completed_of_run {limit : Option Nat} (h : (run limit c).1 = .completed) :
    c.machine.start.1 = .ok () ∧
      (play 0 (limit.getD frameCeiling) c.started).1 = .completed := by
  rcases hstart : c.machine.start.1 with e | ⟨⟩
  · rw [run_of_start_error hstart] at h
    cases h
  · refine ⟨rfl, ?_⟩
    by_contra hplay
    rw [run_of_ended limit hstart hplay] at h
    exact hplay h

end Play

end Console

end Chip8
