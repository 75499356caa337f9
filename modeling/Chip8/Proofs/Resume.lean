/-
**Runs in a row.**

A run that reaches its limit stops its machine, and the next run starts it again.  Nothing comes of
that.  A machine that runs is stopped and runs again, one that waits for a key goes on waiting, and
all that remains are the entries in the journal which say so.  Since a machine never looks into its
journal, the second run does what the first one would have done with a higher limit.

Main definitions:

* `Chip8.Event.marksRun` — the entries that tell of runs, and not of the machine;
* `Chip8.Machine.behind`, `Chip8.Machine.Blind` — a machine with a longer past, and what is done
  without looking at the past;
* `Chip8.Machine.Alike`, `Chip8.Console.Alike` — the same but for the entries that tell of runs.

Main results:

* `Chip8.Machine.blind_setKey`, `Chip8.Machine.blind_tick` — a machine does not look into its
  journal;
* `Chip8.Console.Alike.play` — frames keep consoles alike;
* `Chip8.Machine.Up.alike_restarted` — stopping a machine that is up and starting it again changes
  nothing;
* `Chip8.Console.run_add` — **two runs in a row are one**.
-/
import Chip8.Proofs.Playing
import Chip8.Device.Display
import Chip8.Device.Sound
import Chip8.Device.Keys
import Chip8.Device.Clock

set_option relaxedAutoImplicit false
set_option autoImplicit false

namespace Chip8

namespace Event

/-- Entries that tell of runs: that a machine was started or stopped, or is about to be left. -/
def marksRun : Event → Bool
  | noted (.started _) | noted .stopped | noted (.quitting _) => true
  | _ => false

@[simp] theorem marksRun_called (call : DeviceCall) (done : Bool) :
    (called call done).marksRun = false := rfl

@[simp] theorem marksRun_started (pc : UInt16) : (noted (.started pc)).marksRun = true := rfl

@[simp] theorem marksRun_stopped : (noted .stopped).marksRun = true := rfl

end Event

namespace Machine

variable {δ σ : Type}

/-! ### Nothing looks into the journal -/

/-- The same machine with a longer past. -/
def behind (m : Machine δ σ) (past : Array Event) : Machine δ σ :=
  { m with journal := past ++ m.journal }

/-- Something that is done to a machine regardless of its past. -/
def Blind {α : Type} (f : Machine δ σ → α × Machine δ σ) : Prop :=
  ∀ m past, f (m.behind past) = ((f m).1, (f m).2.behind past)

theorem behind_note (m : Machine δ σ) (past : Array Event) (record : Record) :
    (m.behind past).note record = (m.note record).behind past := by
  simp [behind, note]

theorem behind_executed (m : Machine δ σ) (past : Array Event) :
    (m.behind past).executed = m.executed.behind past := by
  have hjournal : past ++ m.journal ++ m.cpu.step.log.map Event.noted =
      past ++ (m.journal ++ m.cpu.step.log.map Event.noted) := by
    apply Array.ext'
    simp only [Array.toList_append, Array.toList_appendList, List.append_assoc]
  simp only [behind, executed, noteAll, hjournal]

theorem blind_start : Blind (start : Machine δ σ → Except Error Unit × Machine δ σ) := by
  intro m past
  rcases hd : m.display with _ | d
  · simp [start, behind, hd]
  · rcases hstate : m.state with _ | _ | register | word <;>
      simp [start, behind, note, hd, hstate]

theorem blind_setKey (key : UInt8) : Blind fun m : Machine δ σ => m.setKey key := by
  intro m past
  have hstate : (m.behind past).state = m.state := rfl
  simp only [setKey, hstate]
  split
  · -- the roundabout way: stopped, then started
    rw [← blind_start, ← behind_note]
    rfl
  · rfl
  · rfl
  · rfl

section Frames

variable [DisplayDevice δ]

theorem blind_clearDisplay :
    Blind (clearDisplay : Machine δ σ → Except Error Unit × Machine δ σ) := by
  intro m past
  cases hd : m.display <;> simp [clearDisplay, behind, hd]

theorem blind_renderDisplay :
    Blind (renderDisplay : Machine δ σ → Except Error Unit × Machine δ σ) := by
  intro m past
  cases hd : m.display <;> simp [renderDisplay, behind, hd]

theorem blind_cycle : Blind (cycle : Machine δ σ → Except Error Unit × Machine δ σ) := by
  intro m past
  rcases hout : m.cpu.step.outcome with e | flow
  · have hpast : (m.behind past).cpu.step.outcome = .error e := hout
    rw [cycle_of_error hout, cycle_of_error hpast, behind_executed, ← behind_note]
    rfl
  · have hpast : (m.behind past).cpu.step.outcome = .ok flow := hout
    cases flow with
    | next => rw [cycle_of_next hout, cycle_of_next hpast, behind_executed]
    | cleared =>
        rw [cycle_of_cleared hout, cycle_of_cleared hpast, behind_executed]
        exact blind_clearDisplay m.executed past
    | awaitKey register =>
        rw [cycle_of_awaitKey hout, cycle_of_awaitKey hpast, behind_executed, ← behind_note]
        rfl

theorem blind_batch (n : Nat) : Blind fun m : Machine δ σ => m.batch n := by
  intro m past
  induction n generalizing m with
  | zero => rfl
  | succ n ih =>
      have hsame : (m.behind past).isRunning = m.isRunning := rfl
      by_cases hrun : m.isRunning = true
      · simp only [batch, hsame, if_pos hrun, blind_cycle m past]
        rcases m.cycle with ⟨e | ⟨⟩, m₁⟩
        · rfl
        · exact ih m₁
      · have hidle := Bool.eq_false_iff.2 hrun
        simp only [batch_of_not_running hidle, batch_of_not_running (hsame.trans hidle)]

theorem blind_present : Blind (present : Machine δ σ → Except Error Unit × Machine δ σ) := by
  intro m past
  have hcpu : (m.behind past).cpu = m.cpu := rfl
  simp only [present, hcpu]
  rcases m.cpu.takeDrawPending with ⟨pending, cpu⟩
  cases pending with
  | true => exact blind_renderDisplay { m with cpu := cpu } past
  | false => rfl

end Frames

section Sounds

variable [SoundDevice σ]

theorem blind_ring : Blind (ring : Machine δ σ → Except Error Unit × Machine δ σ) := by
  intro m past
  simp [ring, behind]

theorem blind_updateSound :
    Blind (updateSound : Machine δ σ → Except Error Unit × Machine δ σ) := by
  intro m past
  simp [updateSound, behind]

theorem blind_decay : Blind (decay : Machine δ σ → Except Error Unit × Machine δ σ) := by
  intro m past
  have hcpu : (m.behind past).cpu = m.cpu := rfl
  have hdue : (m.behind past).timersDue = m.timersDue := rfl
  simp only [decay, hcpu, hdue]
  rcases m.cpu.tickTimers with ⟨rings, cpu⟩
  cases m.timersDue with
  | false => rfl
  | true =>
      cases rings with
      | true => exact blind_ring { m with cpu := cpu } past
      | false => rfl

theorem blind_finishFrame :
    Blind (finishFrame : Machine δ σ → Except Error Unit × Machine δ σ) := by
  intro m past
  simp only [finishFrame, blind_decay m past]
  rcases m.decay with ⟨e | ⟨⟩, m₁⟩
  · rfl
  · exact blind_updateSound { m₁ with frame := m₁.frame + 1 } past

end Sounds

/-- **A frame takes place regardless of what happened before.** -/
theorem blind_tick [DisplayDevice δ] [SoundDevice σ] :
    Blind (tick : Machine δ σ → Except Error Unit × Machine δ σ) := by
  intro m past
  have hconfig : (m.behind past).config = m.config := rfl
  have hbatch := blind_batch m.config.cyclesPerFrame m past
  simp only [tick, hconfig, hbatch, blind_present _ past]
  rcases (m.batch m.config.cyclesPerFrame).2.present with ⟨e | ⟨⟩, m₁⟩
  · rfl
  · rcases (m.batch m.config.cyclesPerFrame).1 with e | ⟨⟩
    · rfl
    · exact blind_finishFrame m₁ past

/-! ### The same but for the runs -/

/-- Two machines are the same, and the same happened to them, but for the entries that tell of
runs. -/
structure Alike (m m' : Machine δ σ) : Prop where
  cpu : m.cpu = m'.cpu
  display : m.display = m'.display
  sound : m.sound = m'.sound
  config : m.config = m'.config
  state : m.state = m'.state
  frame : m.frame = m'.frame
  events : m.journal.toList.filter (!·.marksRun) = m'.journal.toList.filter (!·.marksRun)

namespace Alike

variable {m m' : Machine δ σ}

theorem refl (m : Machine δ σ) : Alike m m :=
  ⟨rfl, rfl, rfl, rfl, rfl, rfl, rfl⟩

theorem symm (h : Alike m m') : Alike m' m :=
  ⟨h.cpu.symm, h.display.symm, h.sound.symm, h.config.symm, h.state.symm, h.frame.symm,
    h.events.symm⟩

theorem trans {m'' : Machine δ σ} (h : Alike m m') (h' : Alike m' m'') : Alike m m'' :=
  ⟨h.cpu.trans h'.cpu, h.display.trans h'.display, h.sound.trans h'.sound,
    h.config.trans h'.config, h.state.trans h'.state, h.frame.trans h'.frame,
    h.events.trans h'.events⟩

/-- The devices of machines that are alike were asked for the same. -/
theorem calls (h : Alike m m') : m.calls = m'.calls := by
  have hunmarked : ∀ events : List Event,
      events.filterMap Event.call? =
        (events.filter (!·.marksRun)).filterMap Event.call? := by
    intro events
    rw [List.filterMap_filter]
    congr 1
    funext event
    cases event with
    | noted record => simp [Event.call?]
    | called call succeeded => simp
  rw [Machine.calls, Machine.calls, hunmarked, hunmarked m'.journal.toList, h.events]

/-- Machines that are alike have come from the same machine by different pasts. -/
theorem exists_behind (h : Alike m m') :
    ∃ (fresh : Machine δ σ) (past past' : Array Event),
      m = fresh.behind past ∧ m' = fresh.behind past' ∧
        past.toList.filter (!·.marksRun) = past'.toList.filter (!·.marksRun) := by
  refine ⟨{ m with journal := #[] }, m.journal, m'.journal, ?_, ?_, h.events⟩
  · simp [behind]
  · obtain ⟨cpu, display, sound, config, state, frame, journal⟩ := m'
    obtain ⟨rfl, rfl, rfl, rfl, rfl, rfl, -⟩ := h
    simp [behind]

theorem of_behind (m : Machine δ σ) {past past' : Array Event}
    (h : past.toList.filter (!·.marksRun) = past'.toList.filter (!·.marksRun)) :
    Alike (m.behind past) (m.behind past') := by
  refine ⟨rfl, rfl, rfl, rfl, rfl, rfl, ?_⟩
  simp only [behind, Array.toList_append, List.filter_append, h]

/-- **What is done regardless of the past** comes to the same for machines that are alike, and keeps
them alike. -/
theorem blind {α : Type} {f : Machine δ σ → α × Machine δ σ} (hblind : Blind f) (h : Alike m m') :
    (f m).1 = (f m').1 ∧ Alike (f m).2 (f m').2 := by
  obtain ⟨fresh, past, past', rfl, rfl, hevents⟩ := h.exists_behind
  rw [hblind fresh past, hblind fresh past']
  exact ⟨rfl, of_behind _ hevents⟩

theorem note (h : Alike m m') (record : Record) : Alike (m.note record) (m'.note record) :=
  ⟨h.cpu, h.display, h.sound, h.config, h.state, h.frame, by
    simp only [Machine.note, Array.toList_push, List.filter_append, h.events]⟩

theorem noteAll (h : Alike m m') (records : List Record) :
    Alike (m.noteAll records) (m'.noteAll records) :=
  ⟨h.cpu, h.display, h.sound, h.config, h.state, h.frame, by
    simp only [Machine.noteAll, Array.toList_appendList, List.filter_append, h.events]⟩

/-- A note that tells of runs makes no difference. -/
theorem note_right (m : Machine δ σ) {record : Record} (h : (Event.noted record).marksRun = true) :
    Alike m (m.note record) :=
  ⟨rfl, rfl, rfl, rfl, rfl, rfl, by simp [Machine.note, h]⟩

theorem unsetKey (h : Alike m m') (key : UInt8) : Alike (m.unsetKey key) (m'.unsetKey key) :=
  ⟨by simp only [Machine.unsetKey, h.cpu], h.display, h.sound, h.config, h.state, h.frame, h.events⟩

theorem stop (h : Alike m m') : Alike m.stop m'.stop := by
  have hsame : m.isRunning = m'.isRunning := by rw [isRunning, isRunning, h.state]
  have hstopped : Alike { m with state := .stopped } { m' with state := .stopped } :=
    ⟨h.cpu, h.display, h.sound, h.config, rfl, h.frame, h.events⟩
  unfold Machine.stop
  rw [hsame]
  split
  · exact hstopped.note .stopped
  · exact h

/-- Handing over events comes to the same, however many frames were completed before. -/
theorem handle (h : Alike m m') (frames frames' : Nat) (events : List KeyEvent) :
    (Console.handle frames events m).1 = (Console.handle frames' events m').1 ∧
      Alike (Console.handle frames events m).2 (Console.handle frames' events m').2 := by
  induction events generalizing m m' with
  | nil => exact ⟨rfl, h⟩
  | cons event events ih =>
      cases event with
      | pressed key =>
          obtain ⟨hresult, hnext⟩ := h.blind (blind_setKey key)
          rcases hset : m.setKey key with ⟨result, m₁⟩
          rcases hset' : m'.setKey key with ⟨result', m₁'⟩
          rw [hset, hset'] at hresult hnext
          simp only at hresult
          subst hresult
          rcases result with e | ⟨⟩
          · simp only [Console.handle, hset, hset']
            exact ⟨trivial, hnext⟩
          · simp only [Console.handle, hset, hset']
            exact ih hnext
      | released key => exact ih (h.unsetKey key)
      | quit =>
          refine ⟨rfl, stop ?_⟩
          exact ((note_right m rfl).symm.trans h).trans (note_right m' rfl)

end Alike

/-- **Stopping a machine that is up and starting it again changes nothing.**  Should it wait for a
key, it goes on waiting. -/
theorem Up.alike_restarted {m : Machine δ σ} (h : m.Up) :
    m.stop.start.1 = .ok () ∧ Alike m m.stop.start.2 := by
  obtain ⟨d, hd⟩ := Option.isSome_iff_exists.1 h.attached
  rcases h.state with hrunning | ⟨register, hwaiting⟩
  · refine ⟨by simp [stop, start, isRunning, note, hrunning, hd], ?_⟩
    constructor <;> simp [stop, start, isRunning, note, hrunning, hd]
  · have hstop : m.stop = m := stop_of_ne_running (by simp [isRunning, hwaiting])
    rw [hstop, start_of_waiting h.attached hwaiting]
    exact ⟨rfl, .refl m⟩

end Machine

namespace Console

variable {δ σ κ ι : Type}

/-- The machines are alike, and clock and keys are the same. -/
structure Alike (c c' : Console δ σ κ ι) : Prop where
  machine : c.machine.Alike c'.machine
  clock : c.clock = c'.clock
  keys : c.keys = c'.keys

namespace Alike

variable [DisplayDevice δ] [SoundDevice σ] [FrameClock κ] [KeyDevice ι] {c c' : Console δ σ κ ι}

theorem frame (h : Alike c c') (frames frames' : Nat) :
    (c.frame frames).1 = (c'.frame frames').1 ∧
      Alike (c.frame frames).2 (c'.frame frames').2 := by
  obtain ⟨m, clock, keys⟩ := c
  obtain ⟨m', clock', keys'⟩ := c'
  obtain ⟨hmachine, rfl, rfl⟩ := h
  have hnoted := hmachine.noteAll (KeyDevice.poll keys).log
  cases hevents : (KeyDevice.poll keys).events with
  | error failure =>
      simp only [Console.frame, hevents]
      exact ⟨trivial, hnoted, rfl, rfl⟩
  | ok events =>
      obtain ⟨hending, hhandled⟩ := hnoted.handle frames frames' events
      rcases hresult : handle frames events (m.noteAll (KeyDevice.poll keys).log) with ⟨ending, m₁⟩
      rcases hresult' : handle frames' events (m'.noteAll (KeyDevice.poll keys).log) with
        ⟨ending', m₁'⟩
      rw [hresult, hresult'] at hending hhandled
      simp only at hending
      subst hending
      cases ending with
      | completed =>
          obtain ⟨hticked, hafter⟩ := hhandled.blind Machine.blind_tick
          rcases htick : m₁.tick with ⟨result, m₂⟩
          rcases htick' : m₁'.tick with ⟨result', m₂'⟩
          rw [htick, htick'] at hticked hafter
          simp only at hticked
          subst hticked
          rcases result with e | ⟨⟩
          · simp only [Console.frame, hevents, hresult, hresult', htick, htick']
            exact ⟨trivial, hafter, rfl, rfl⟩
          · simp only [Console.frame, hevents, hresult, hresult', htick, htick']
            exact ⟨trivial, hafter, rfl, rfl⟩
      | quit =>
          simp only [Console.frame, hevents, hresult, hresult']
          exact ⟨trivial, hhandled, rfl, rfl⟩
      | failed e =>
          simp only [Console.frame, hevents, hresult, hresult']
          exact ⟨trivial, hhandled, rfl, rfl⟩

/-- **Frames keep consoles alike**, however many were completed before. -/
theorem play (h : Alike c c') (n frames frames' : Nat) :
    (play frames n c).1 = (play frames' n c').1 ∧
      Alike (play frames n c).2 (play frames' n c').2 := by
  induction n generalizing c c' frames frames' with
  | zero => exact ⟨rfl, h⟩
  | succ n ih =>
      obtain ⟨hending, hnext⟩ := h.frame frames frames'
      by_cases hframe : (c.frame frames).1 = .completed
      · rw [play_succ_of_completed hframe, play_succ_of_completed (hending ▸ hframe)]
        exact ih hnext (frames + 1) (frames' + 1)
      · rw [play_succ_of_ended hframe, play_succ_of_ended (hending ▸ hframe)]
        exact ⟨hending, hnext⟩

end Alike

variable [DisplayDevice δ] [SoundDevice σ] [FrameClock κ] [KeyDevice ι] {c : Console δ σ κ ι}

/-- **Two runs in a row are one.**  If a run reaches its limit, then another run after it, with the
same clock and what is left of the keys, ends as one run with both limits together ends: completed,
left or with the same error.  The machine is left in the same state, having asked the same of its
devices, and so are the clock and the keys. -/
theorem run_add {a : Nat} (h : (run (some a) c).1 = .completed) (b : Nat) :
    (run (some b) (run (some a) c).2).1 = (run (some (a + b)) c).1 ∧
      (run (some b) (run (some a) c).2).2.Alike (run (some (a + b)) c).2 ∧
      (run (some b) (run (some a) c).2).2.machine.calls = (run (some (a + b)) c).2.machine.calls := by
  obtain ⟨hstart, hfirst⟩ := completed_of_run h
  have hup := play_up (Machine.Up.of_start hstart : c.started.machine.Up) hfirst
  have hboth := play_add hfirst b
  rw [run_of_completed _ hstart hfirst]
  simp only [Option.getD_some, Nat.zero_add] at hfirst hup hboth ⊢
  generalize (play 0 a c.started).2 = mid at hup hboth ⊢
  -- the second run starts the machine that the first one stopped
  obtain ⟨hagain, hseam⟩ := hup.alike_restarted
  have hmid : Alike { mid with machine := mid.machine.stop.start.2 } mid :=
    ⟨hseam.symm, rfl, rfl⟩
  obtain ⟨hending, hrest⟩ := hmid.play b 0 a
  rw [← hboth] at hending hrest
  let again : Console δ σ κ ι := { mid with machine := mid.machine.stop }
  have hrun : (run (some b) again).1 = (run (some (a + b)) c).1 ∧
      (run (some b) again).2.Alike (run (some (a + b)) c).2 := by
    by_cases hcompleted : (play 0 (a + b) c.started).1 = .completed
    · have hcompleted' : (play 0 b again.started).1 = .completed := hending.trans hcompleted
      rw [run_of_completed (some (a + b)) hstart hcompleted,
        run_of_completed (some b) hagain hcompleted']
      exact ⟨rfl, hrest.machine.stop, hrest.clock, hrest.keys⟩
    · have hcompleted' : (play 0 b again.started).1 ≠ .completed := fun h =>
        hcompleted (hending.symm.trans h)
      rw [run_of_ended (some (a + b)) hstart hcompleted,
        run_of_ended (some b) hagain hcompleted']
      exact ⟨hending, hrest⟩
  exact ⟨hrun.1, hrun.2, hrun.2.machine.calls⟩

/-- A console whose program waits for a key at once and then loops.  The key comes in the third
frame, and in the fourth one somebody leaves. -/
def keyInThird : Console PictureLog Mute FrameCount ScriptedKeys :=
  ⟨((Machine.new .mute {} 0).attach .new).load [0xf0, 0x0a, 0x12, 0x02], ⟨0⟩,
    .new [.ok [], .ok [], .ok [.pressed 7], .ok [.released 7, .quit]]⟩

/-- The wait goes on from the first run into the second one. -/
theorem run_add_keyInThird :
    (run (some 2) keyInThird).1 = .completed ∧
      (run (some 2) keyInThird).2.machine.state = .waitingForKey 0 ∧
      (run (some 3) (run (some 2) keyInThird).2).1 = .quit ∧
      (run (some 5) keyInThird).1 = .quit ∧
      (run (some 3) (run (some 2) keyInThird).2).2.Alike (run (some 5) keyInThird).2 ∧
      (run (some 3) (run (some 2) keyInThird).2).2.machine.cpu.registers.get 0 = 7 := by
  obtain ⟨hcompleted, hwaits, hquit, hkey⟩ :
      (run (some 2) keyInThird).1 = .completed ∧
        (run (some 2) keyInThird).2.machine.state = .waitingForKey 0 ∧
        (run (some 5) keyInThird).1 = .quit ∧
        (run (some 5) keyInThird).2.machine.cpu.registers.get 0 = 7 := by decide +kernel
  obtain ⟨hending, halike, -⟩ := run_add hcompleted 3
  have hcpu := halike.machine.cpu
  refine ⟨hcompleted, hwaits, hending.trans hquit, hquit, halike, ?_⟩
  simp only [hcpu, Nat.reduceAdd]
  exact hkey

end Console

end Chip8
