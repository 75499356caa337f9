/-
**The accounts of a run.**

A run counts three things: how often it waited for the clock, how often it asked for the keys, and,
in its machine, the frames.  The first two go together.  The third may lag behind by one, and that
depends on how the run ends.  There are six ways out.  A run reaches its limit, somebody leaves, the
source of keys fails, an instruction or a device fails before the frame is counted, the sound device
fails when it is told that the frame is over, which is after it, or the machine does not start in the
first place.

The keys come from a script, so that it can be said what the answer to each question is.  Whatever
the limit is, a run does not go on past the first answer that ends it.

Main definitions:

* `Chip8.ScriptedKeys.answer`, `Chip8.EndsRun` — the answers of a script, and those that end a run;
* `Chip8.Console.Played` — the accounts of frames that were completed;
* `Chip8.Console.Accounts` — the accounts of a run.

Main results:

* `Chip8.Console.played_of_completed` — frames that are completed are counted all round;
* `Chip8.Console.run_accounts` — **the accounts of every run**.
-/
import Chip8.Proofs.Playing
import Chip8.Proofs.Requests
import Chip8.Device.Display
import Chip8.Device.Sound
import Chip8.Device.Keys
import Chip8.Device.Clock

set_option relaxedAutoImplicit false
set_option autoImplicit false

namespace Chip8

/-! ### Answers of a script -/

/-- An answer of the keys that ends a run: a failure, or the wish to leave. -/
def EndsRun : Except IoFailure (List KeyEvent) → Prop
  | .error _ => True
  | .ok events => .quit ∈ events

namespace ScriptedKeys

/-- The answer to a question, counted from zero; after the script nothing happens any more. -/
def answer (k : ScriptedKeys) (q : Nat) : Except IoFailure (List KeyEvent) :=
  k.batches[q]?.getD (.ok [])

/-- A script gives its first answer, and the others move up. -/
theorem poll_spec (k : ScriptedKeys) :
    (KeyDevice.poll k).events = k.answer 0 ∧ (KeyDevice.poll k).log = [] ∧
      (KeyDevice.poll k).device.polls = k.polls + 1 ∧
      ∀ q, (KeyDevice.poll k).device.answer q = k.answer (q + 1) := by
  obtain ⟨batches, polls⟩ := k
  cases batches with
  | nil => exact ⟨rfl, rfl, rfl, fun _ => rfl⟩
  | cons batch batches => exact ⟨rfl, rfl, rfl, fun _ => rfl⟩

end ScriptedKeys

namespace Machine

variable {δ σ : Type}

/-- Events at the keys are no frames. -/
theorem heedAll_frame (m : Machine δ σ) (events : List KeyEvent) :
    (m.heedAll events).frame = m.frame := by
  induction events generalizing m with
  | nil => rfl
  | cons event events ih =>
      rw [heedAll_cons, ih]
      cases event with
      | pressed key => exact (Idle.setKey m key).frame
      | released key => rfl
      | quit => rfl

end Machine

namespace Console

variable {δ σ : Type}

theorem noted_eq (c : Console δ σ FrameCount ScriptedKeys) : c.noted = c.machine := by
  rw [noted, c.keys.poll_spec.2.1]
  simp [Machine.noteAll]

/-! ### Frames that are completed -/

/-- The accounts of `n` frames that were completed: the machine is still up, everything has been
counted `n` times, and none of the answers ends a run. -/
structure Played (n : Nat) (c c' : Console δ σ FrameCount ScriptedKeys) : Prop where
  up : c'.machine.Up
  asked : c'.keys.polls = c.keys.polls + n
  waited : c'.clock.frames = c.clock.frames + n
  frame : c'.machine.frame = c.machine.frame + n
  answer : ∀ q, c'.keys.answer q = c.keys.answer (n + q)
  goesOn : ∀ q, q < n → ¬ EndsRun (c.keys.answer q)

theorem Played.trans {a b : Nat} {c c' c'' : Console δ σ FrameCount ScriptedKeys} (h : Played a c c')
    (h' : Played b c' c'') : Played (a + b) c c'' := by
  refine ⟨h'.up, ?_, ?_, ?_, fun q => ?_, fun q hq => ?_⟩
  · rw [h'.asked, h.asked, Nat.add_assoc]
  · rw [h'.waited, h.waited, Nat.add_assoc]
  · rw [h'.frame, h.frame, Nat.add_assoc]
  · rw [h'.answer, h.answer, Nat.add_assoc]
  · by_cases hfirst : q < a
    · exact h.goesOn q hfirst
    · have hlater := h'.goesOn (q - a) (by omega)
      rw [h.answer, Nat.add_sub_cancel' (by omega)] at hlater
      exact hlater

variable [DisplayDevice δ] [SoundDevice σ]

section Frames

variable {c : Console δ σ FrameCount ScriptedKeys} {frames n : Nat}

/-- However a frame ends, the clock was waited for and the keys were asked. -/
theorem frame_counts (frames : Nat) (c : Console δ σ FrameCount ScriptedKeys) :
    (c.frame frames).2.keys.polls = c.keys.polls + 1 ∧
      (c.frame frames).2.clock.frames = c.clock.frames + 1 := by
  obtain ⟨hclock, hkeys⟩ := frame_devices frames c
  rw [hclock, hkeys]
  exact ⟨c.keys.poll_spec.2.2.1, rfl⟩

/-- **A frame that is completed is counted all round.** -/
theorem played_one (h : c.machine.Up) (hcompleted : (c.frame frames).1 = .completed) :
    Played 1 c (c.frame frames).2 := by
  obtain ⟨hasked, -, -, hmoved⟩ := c.keys.poll_spec
  obtain ⟨hcount, hwaited⟩ := frame_counts frames c
  have hkeys := (frame_devices frames c).2
  have hends := frame_ends h frames
  rw [hcompleted] at hends
  generalize hm : (c.frame frames).2.machine = m at hends
  cases hends with
  | @completes events _ hevents hquit htick =>
      refine ⟨frame_up h hcompleted, hcount, hwaited, ?_, fun q => ?_, fun q hq => ?_⟩
      · have hcounted := Machine.frame_of_ok (congrArg Prod.fst htick)
        rw [htick, Machine.heedAll_frame, noted_eq] at hcounted
        rw [hm, hcounted]
      · rw [hkeys, hmoved, Nat.add_comm]
      · obtain rfl : q = 0 := Nat.lt_one_iff.1 hq
        rw [← hasked, hevents]
        exact hquit

/-- **Frames that are completed are counted all round.** -/
theorem played_of_completed (h : c.machine.Up) (hcompleted : (play frames n c).1 = .completed) :
    Played n c (play frames n c).2 := by
  induction n generalizing frames c with
  | zero => exact ⟨h, rfl, rfl, rfl, fun q => by rw [Nat.zero_add]; rfl, fun q hq => by simp at hq⟩
  | succ n ih =>
      by_cases hframe : (c.frame frames).1 = .completed
      · have hfirst := played_one h hframe
        rw [play_succ_of_completed hframe] at hcompleted ⊢
        rw [Nat.add_comm]
        exact hfirst.trans (ih hfirst.up hcompleted)
      · rw [play_succ_of_ended hframe] at hcompleted
        exact absurd hcompleted hframe

end Frames

/-! ### Runs -/

/-- The machine of a run when `n` frames of it have been completed. -/
def machineAfter (c : Console δ σ FrameCount ScriptedKeys) (n : Nat) : Machine δ σ :=
  (play 0 n c.started).2.machine

/-- The accounts of a run that asked for the keys `polls` times. -/
structure Accounts (limit : Option Nat) (c : Console δ σ FrameCount ScriptedKeys) (polls : Nat) :
    Prop where
  asked : (run limit c).2.keys.polls = c.keys.polls + polls
  /-- The clock was waited for as often. -/
  waited : (run limit c).2.clock.frames = c.clock.frames + polls
  limited : polls ≤ limit.getD frameCeiling
  /-- An answer that ends a run is the last one, whatever the limit is. -/
  ends : ∀ q, EndsRun (c.keys.answer q) → polls ≤ q + 1
  /-- A machine that does not start is left alone. -/
  unstarted : ∀ e, c.machine.start.1 = .error e → polls = 0 ∧ run limit c = (.failed e, c)
  /-- At the limit all frames have been counted. -/
  completed : (run limit c).1 = .completed →
    polls = limit.getD frameCeiling ∧
      (run limit c).2.machine.frame = c.machine.frame + polls
  /-- The frame in which somebody leaves is not counted.  Of its events those before the wish to
  leave are handed over and those after it are not. -/
  quit : (run limit c).1 = .quit → ∃ n before after,
    polls = n + 1 ∧ (play 0 n c.started).1 = .completed ∧
      c.keys.answer n = .ok (before ++ .quit :: after) ∧ .quit ∉ before ∧
      (run limit c).2.machine =
        (((c.machineAfter n).heedAll before).note (.quitting n)).stop ∧
      (run limit c).2.machine.frame = c.machine.frame + n
  /-- A frame that fails is not counted, unless telling the sound device fails. -/
  failed : ∀ e, (run limit c).1 = .failed e → 0 < polls → ∃ n,
    polls = n + 1 ∧ (play 0 n c.started).1 = .completed ∧
      ((∃ failure, c.keys.answer n = .error failure ∧ e = .io failure ∧
          (run limit c).2.machine = c.machineAfter n ∧
          (run limit c).2.machine.frame = c.machine.frame + n) ∨
        ∃ events, c.keys.answer n = .ok events ∧ .quit ∉ events ∧
          ((c.machineAfter n).heedAll events).tick = (.error e, (run limit c).2.machine) ∧
          (run limit c).2.machine.frame = c.machine.frame + n +
            if ((c.machineAfter n).heedAll events).FailsToUpdate then 1 else 0)
  /-- A run that does not fail leaves its machine at rest. -/
  atRest : (run limit c).1.result = .ok () →
    (run limit c).2.machine.state = .stopped ∨
      ∃ register, (run limit c).2.machine.state = .waitingForKey register

variable {limit : Option Nat} {c : Console δ σ FrameCount ScriptedKeys}

/-- A run whose machine does not start has nothing to account for. -/
theorem accounts_of_error {e : Error} (hstart : c.machine.start = (.error e, c.machine)) :
    Accounts limit c 0 := by
  have hrun : run limit c = (.failed e, c) := by
    rw [run_of_start_error (congrArg Prod.fst hstart), hstart]
  refine ⟨by rw [hrun]; rfl, by rw [hrun]; rfl, Nat.zero_le _, fun q _ => Nat.zero_le _, ?_, ?_, ?_,
    ?_, ?_⟩
  · intro e' hstart'
    rw [hstart] at hstart'
    cases hstart'
    exact ⟨rfl, hrun⟩
  · intro hcompleted
    rw [hrun] at hcompleted
    cases hcompleted
  · intro hquit
    rw [hrun] at hquit
    cases hquit
  · intro _ _ hpolled
    exact absurd hpolled (Nat.lt_irrefl 0)
  · intro hok
    rw [hrun] at hok
    cases hok

/-- A run that reaches its limit has the accounts of its frames. -/
theorem accounts_of_completed (hstart : c.machine.start.1 = .ok ()) (hup : c.started.machine.Up)
    (hplay : (play 0 (limit.getD frameCeiling) c.started).1 = .completed) :
    Accounts limit c (limit.getD frameCeiling) := by
  have hrun := run_of_completed limit hstart hplay
  have hplayed := played_of_completed hup hplay
  refine ⟨?_, ?_, Nat.le_refl _, fun q hends => ?_, ?_, ?_, ?_, ?_, ?_⟩
  · rw [hrun]
    exact hplayed.asked
  · rw [hrun]
    exact hplayed.waited
  · by_contra hlater
    exact hplayed.goesOn q (by omega) hends
  · intro e hstart'
    rw [hstart] at hstart'
    cases hstart'
  · intro _
    refine ⟨rfl, ?_⟩
    rw [hrun, (Machine.Idle.stop _).frame, hplayed.frame]
    exact congrArg (· + _) (Machine.Idle.start c.machine).frame
  · intro hquit
    rw [hrun] at hquit
    cases hquit
  · intro e hfailed
    rw [hrun] at hfailed
    cases hfailed
  · intro _
    rw [hrun]
    exact hplayed.up.stop_state

/-- A run that ends before its limit has the accounts of the frames before its last one, and that
one besides. -/
theorem accounts_of_ended (hstart : c.machine.start.1 = .ok ()) (hup : c.started.machine.Up)
    (hplay : (play 0 (limit.getD frameCeiling) c.started).1 ≠ .completed) :
    ∃ polls, Accounts limit c polls := by
  have hrun := run_of_ended limit hstart hplay
  obtain hcompleted | ⟨n, hlt, hcompleted, hended, hlast⟩ :=
    play_cases 0 (limit.getD frameCeiling) c.started
  · exact absurd hcompleted hplay
  · have hplayed := played_of_completed hup hcompleted
    have hmachine : (play 0 n c.started).2.noted = c.machineAfter n := noted_eq _
    have hframe : (c.machineAfter n).frame = c.machine.frame + n :=
      hplayed.frame.trans (congrArg (· + n) (Machine.Idle.start c.machine).frame)
    have hanswer : (KeyDevice.poll (play 0 n c.started).2.keys).events = c.keys.answer n :=
      (ScriptedKeys.poll_spec _).1.trans (hplayed.answer 0)
    obtain ⟨hasked, hwaited⟩ := frame_counts n (play 0 n c.started).2
    have hends := frame_ends hplayed.up n
    rw [Nat.zero_add] at hended hlast
    rw [hlast] at hrun
    rw [← hrun] at hended hasked hwaited hends
    -- the last frame, by how it ends
    have hquits : (run limit c).1 = .quit → ∃ before after,
        c.keys.answer n = .ok (before ++ .quit :: after) ∧ .quit ∉ before ∧
          (run limit c).2.machine = (((c.machineAfter n).heedAll before).note (.quitting n)).stop := by
      intro hquit
      rw [hquit] at hends
      generalize (run limit c).2.machine = m at hends ⊢
      cases hends with
      | @quits before after hevents hnot =>
          exact ⟨before, after, hanswer.symm.trans hevents, hnot, by rw [hmachine]⟩
    refine ⟨n + 1, ?_, ?_, hlt, fun q hstops => ?_, ?_, ?_, ?_, ?_, ?_⟩
    · rw [hasked, hplayed.asked]
      rfl
    · rw [hwaited, hplayed.waited]
      rfl
    · by_contra hlater
      exact hplayed.goesOn q (by omega) hstops
    · intro e hstart'
      rw [hstart] at hstart'
      cases hstart'
    · intro hcompleted'
      exact absurd hcompleted' hended
    · intro hquit
      obtain ⟨before, after, hevents, hnot, hfinal⟩ := hquits hquit
      refine ⟨n, before, after, rfl, hcompleted, hevents, hnot, hfinal, ?_⟩
      rw [hfinal, (Machine.Idle.stop _).frame, (Machine.Idle.note _ _).frame,
        Machine.heedAll_frame, hframe]
    · intro e hfailed _
      refine ⟨n, rfl, hcompleted, ?_⟩
      rw [hfailed] at hends
      generalize (run limit c).2.machine = m at hends ⊢
      cases hends with
      | @unasked failure hevents =>
          rw [hmachine]
          exact .inl ⟨failure, hanswer.symm.trans hevents, rfl, rfl, hframe⟩
      | @fails events _ _ hevents hnot htick =>
          rw [hmachine] at htick
          have hcounted := Machine.frame_of_error (congrArg Prod.fst htick)
          rw [htick, Machine.heedAll_frame, hframe] at hcounted
          exact .inr ⟨events, hanswer.symm.trans hevents, hnot, htick, hcounted⟩
    · intro hok
      cases hending : (run limit c).1 with
      | completed => exact absurd hending hended
      | quit =>
          obtain ⟨before, _, _, _, hfinal⟩ := hquits hending
          have hup' : (((c.machineAfter n).heedAll before).note (.quitting n)).Up :=
            (hplayed.up.heedAll before).of_same rfl rfl
          rw [hfinal]
          exact hup'.stop_state
      | failed e =>
          rw [hending] at hok
          cases hok

/-- **The accounts of every run.**  Take any machine, any script of keys and any limit, or none.
The run asks for the keys as often as it waits for the clock, at most as often as the limit says and
never again after an answer that ends it.  How many frames it counts depends on its ending: all of
them at the limit, all but the last one if somebody leaves, and all but the last one if something
fails, unless that is telling the sound device that the frame is over.  A machine that does not start
is left alone, and a run that does not fail leaves its machine stopped or waiting for a key. -/
theorem run_accounts (limit : Option Nat) (c : Console δ σ FrameCount ScriptedKeys) :
    ∃ polls, Accounts limit c polls := by
  rcases c.machine.start_cases with ⟨hstart, hup⟩ | ⟨e, hstart⟩
  · by_cases hplay : (play 0 (limit.getD frameCeiling) c.started).1 = .completed
    · exact ⟨_, accounts_of_completed hstart hup hplay⟩
    · exact accounts_of_ended hstart hup hplay
  · exact ⟨0, accounts_of_error hstart⟩

/-- A console with a program that loops.  Its sound device fails when it is told that the second
frame is over. -/
def secondUpdateFails : Console PictureLog (FailingSound Mute) FrameCount ScriptedKeys :=
  ⟨((Machine.new (.new .mute [] [2]) {} 0).attach .new).load [0x12, 0x00], ⟨0⟩, .new []⟩

/-- The frame that fails is counted, and the run is over without a limit. -/
example : (run none secondUpdateFails).1 = .failed (.audio "update failed") ∧
    (run none secondUpdateFails).2.keys.polls = 2 ∧
    (run none secondUpdateFails).2.machine.frame = 2 := by decide +kernel

end Console

end Chip8
