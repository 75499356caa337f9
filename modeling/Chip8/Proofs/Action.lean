/-
**Runs, taken apart.**

A run does many things to its machine: it starts it, notes what the keys have to say, puts keys down
and lets them up, ticks, and in the end stops it.  To speak of the states *during* a run, and not
only of the one it ends in, this module lists what a run does, in order.  Doing what is listed makes
of the machine what the run makes of it, so that a state during a run is a state after a part of the
list, and what each action on the list keeps, the run keeps.

* `Chip8.Action` — one thing that is done to a machine, with `Chip8.Machine.act` and
  `Chip8.Machine.actAll`;
* `Chip8.Machine.actAll_keeps` — what each action keeps, a list of them keeps;
* `Chip8.Console.actions` — what a run does, and `Chip8.Console.run_eq_actAll`: it does just that;
* `Chip8.Console.forall_mem_actions` — what is true of all that a run may do is true of what it
  does.
-/
import Chip8.Console

set_option relaxedAutoImplicit false
set_option autoImplicit false

namespace Chip8

/-- One thing that is done to a machine with a display of type `δ`. -/
inductive Action (δ : Type) where
  | attach (display : δ)
  | start
  | stop
  | reset
  | load (program : List UInt8)
  | loadFrom (source : ByteSource)
  | setKey (key : UInt8)
  | unsetKey (key : UInt8)
  | tick
  /-- A record goes into the journal. -/
  | note (record : Record)
  /-- The processor is changed from outside, in whatever way. -/
  | alter (cpu : Cpu)

/-- The actions that a run is made of. -/
def Action.OfRun {δ : Type} : Action δ → Prop
  | .start | .stop | .setKey _ | .unsetKey _ | .tick | .note _ => True
  | .attach _ | .reset | .load _ | .loadFrom _ | .alter _ => False

/-- What events at the keys may do has a property. -/
structure Action.HoldsOfEvents {δ : Type} (A : Action δ → Prop) : Prop where
  setKey : ∀ key, A (.setKey key)
  unsetKey : ∀ key, A (.unsetKey key)
  quitting : ∀ frames, A (.note (.quitting frames))
  stop : A .stop

/-- What a run may do has a property, whatever its keys note. -/
structure Action.HoldsOfRun {δ : Type} (A : Action δ → Prop) : Prop extends HoldsOfEvents A where
  start : A .start
  tick : A .tick

theorem Action.ofRun_holdsOfRun {δ : Type} : HoldsOfRun fun action : Action δ => action.OfRun :=
  ⟨⟨fun _ => trivial, fun _ => trivial, fun _ => trivial, trivial⟩, trivial, trivial⟩

namespace Machine

variable {δ σ : Type} [DisplayDevice δ] [SoundDevice σ]

/-- The machine after an action, whether that succeeded or not. -/
def act (m : Machine δ σ) : Action δ → Machine δ σ
  | .attach display => m.attach display
  | .start => m.start.2
  | .stop => m.stop
  | .reset => m.reset
  | .load program => m.load program
  | .loadFrom source => (m.loadFrom source).2
  | .setKey key => (m.setKey key).2
  | .unsetKey key => m.unsetKey key
  | .tick => m.tick.2
  | .note record => m.note record
  | .alter cpu => { m with cpu := cpu }

/-- The machine after actions in a row. -/
def actAll (m : Machine δ σ) (actions : List (Action δ)) : Machine δ σ :=
  actions.foldl act m

@[simp] theorem actAll_nil (m : Machine δ σ) : m.actAll [] = m := rfl

@[simp] theorem actAll_cons (m : Machine δ σ) (action : Action δ) (actions : List (Action δ)) :
    m.actAll (action :: actions) = (m.act action).actAll actions := rfl

@[simp] theorem actAll_append (m : Machine δ σ) (first rest : List (Action δ)) :
    m.actAll (first ++ rest) = (m.actAll first).actAll rest :=
  List.foldl_append

/-- **What each action keeps, a list of them keeps.** -/
theorem actAll_keeps {P : Machine δ σ → Prop} {actions : List (Action δ)}
    (hkeeps : ∀ action ∈ actions, ∀ m, P m → P (m.act action)) {m : Machine δ σ} (hm : P m) :
    P (m.actAll actions) := by
  induction actions generalizing m with
  | nil => exact hm
  | cons action actions ih =>
      have hfirst := hkeeps action (List.mem_cons_self ..) m hm
      exact ih (fun a ha => hkeeps a (List.mem_cons_of_mem _ ha)) hfirst

theorem noteAll_eq_actAll (m : Machine δ σ) (records : List Record) :
    m.noteAll records = m.actAll (records.map Action.note) := by
  induction records generalizing m with
  | nil => simp [noteAll]
  | cons record records ih =>
      rw [List.map_cons, actAll_cons, ← ih]
      simp [noteAll, act, note]

end Machine

/-! ### What a run does -/

namespace Console

variable {δ σ κ ι : Type}

/-- What is done to hand events to a machine. -/
def handleActions (frames : Nat) : List KeyEvent → Machine δ σ → List (Action δ)
  | [], _ => []
  | .pressed key :: events, m =>
    match m.setKey key with
    | (.ok (), m) => .setKey key :: handleActions frames events m
    | (.error _, _) => [.setKey key]
  | .released key :: events, m => .unsetKey key :: handleActions frames events (m.unsetKey key)
  | .quit :: _, _ => [.note (.quitting frames), .stop]

theorem forall_mem_handleActions {A : Action δ → Prop} (h : Action.HoldsOfEvents A) {frames : Nat}
    {events : List KeyEvent} {m : Machine δ σ} :
    ∀ action ∈ handleActions frames events m, A action := by
  induction events generalizing m with
  | nil => exact fun _ h => absurd h List.not_mem_nil
  | cons event events ih =>
      cases event with
      | pressed key =>
          rcases hset : m.setKey key with ⟨e | ⟨⟩, m₁⟩
          · simpa [handleActions, hset] using h.setKey key
          · simpa [handleActions, hset, h.setKey key] using ih
      | released key => simpa [handleActions, h.unsetKey key] using ih
      | quit => simpa [handleActions] using ⟨h.quitting frames, h.stop⟩

theorem ofRun_of_mem_handleActions {frames : Nat} {events : List KeyEvent} {m : Machine δ σ} :
    ∀ action ∈ handleActions frames events m, action.OfRun :=
  forall_mem_handleActions Action.ofRun_holdsOfRun.toHoldsOfEvents

section

variable [KeyDevice ι]

/-- What is done in a frame. -/
def frameActions (frames : Nat) (c : Console δ σ κ ι) : List (Action δ) :=
  let polled := KeyDevice.poll c.keys
  let m := c.machine.noteAll polled.log
  polled.log.map Action.note ++
    match polled.events with
    | .error _ => []
    | .ok events =>
      handleActions frames events m ++
        match (handle frames events m).1 with
        | .completed => [.tick]
        | .quit | .failed _ => []

theorem forall_mem_frameActions {A : Action δ → Prop} (h : Action.HoldsOfRun A)
    (hpolled : ∀ keys : ι, ∀ record ∈ (KeyDevice.poll keys).log, A (.note record)) {frames : Nat}
    {c : Console δ σ κ ι} : ∀ action ∈ c.frameActions frames, A action := by
  intro action hmem
  rcases List.mem_append.1 hmem with hnote | hmem
  · obtain ⟨record, hrecord, rfl⟩ := List.mem_map.1 hnote
    exact hpolled c.keys record hrecord
  · split at hmem
    · exact absurd hmem List.not_mem_nil
    · rcases List.mem_append.1 hmem with hhandled | htick
      · exact forall_mem_handleActions h.toHoldsOfEvents action hhandled
      · split at htick
        · rw [List.mem_singleton.1 htick]
          exact h.tick
        · exact absurd htick List.not_mem_nil
        · exact absurd htick List.not_mem_nil

theorem ofRun_of_mem_frameActions {frames : Nat} {c : Console δ σ κ ι} :
    ∀ action ∈ c.frameActions frames, action.OfRun :=
  forall_mem_frameActions Action.ofRun_holdsOfRun fun _ _ _ => trivial

variable [DisplayDevice δ] [SoundDevice σ] [FrameClock κ]

/-- What is done in up to `n` frames. -/
def playActions (frames : Nat) : Nat → Console δ σ κ ι → List (Action δ)
  | 0, _ => []
  | n + 1, c =>
    c.frameActions frames ++
      match c.frame frames with
      | (.completed, c) => playActions (frames + 1) n c
      | (.quit, _) | (.failed _, _) => []

/-- What a run does. -/
def actions (limit : Option Nat) (c : Console δ σ κ ι) : List (Action δ) :=
  .start ::
    match c.machine.start with
    | (.error _, _) => []
    | (.ok (), m) =>
      playActions 0 (limit.getD frameCeiling) { c with machine := m } ++
        match (play 0 (limit.getD frameCeiling) { c with machine := m }).1 with
        | .completed => [.stop]
        | .quit | .failed _ => []

end

section

variable [DisplayDevice δ] [SoundDevice σ]

theorem handle_eq_actAll (frames : Nat) (events : List KeyEvent) (m : Machine δ σ) :
    (handle frames events m).2 = m.actAll (handleActions frames events m) := by
  induction events generalizing m with
  | nil => rfl
  | cons event events ih =>
      cases event with
      | pressed key =>
          rcases hset : m.setKey key with ⟨e | ⟨⟩, m₁⟩
          · simp [handle, handleActions, Machine.act, hset]
          · simp [handle, handleActions, Machine.act, hset, ih]
      | released key => exact ih (m.unsetKey key)
      | quit => rfl

variable [FrameClock κ] [KeyDevice ι]

theorem frame_eq_actAll (frames : Nat) (c : Console δ σ κ ι) :
    (c.frame frames).2.machine = c.machine.actAll (c.frameActions frames) := by
  have hnoted := c.machine.noteAll_eq_actAll (KeyDevice.poll c.keys).log
  cases hevents : (KeyDevice.poll c.keys).events with
  | error failure => simp [frame, frameActions, hevents, hnoted]
  | ok events =>
      have hhandled := handle_eq_actAll frames events
        (c.machine.noteAll (KeyDevice.poll c.keys).log)
      rcases hresult : handle frames events
        (c.machine.noteAll (KeyDevice.poll c.keys).log) with ⟨ending, m⟩
      rw [hresult] at hhandled
      cases ending with
      | completed =>
          rcases hticked : m.tick with ⟨e | ⟨⟩, m₁⟩
          · simp [frame, frameActions, hevents, hresult, hticked, Machine.act, ← hnoted, ← hhandled]
          · simp [frame, frameActions, hevents, hresult, hticked, Machine.act, ← hnoted, ← hhandled]
      | quit => simp [frame, frameActions, hevents, hresult, ← hnoted, ← hhandled]
      | failed e => simp [frame, frameActions, hevents, hresult, ← hnoted, ← hhandled]

theorem play_eq_actAll (n frames : Nat) (c : Console δ σ κ ι) :
    (play frames n c).2.machine = c.machine.actAll (playActions frames n c) := by
  induction n generalizing frames c with
  | zero => rfl
  | succ n ih =>
      have hframe := c.frame_eq_actAll frames
      rw [play_succ, playActions, Machine.actAll_append, ← hframe]
      rcases hresult : c.frame frames with ⟨ending, c₁⟩
      cases ending with
      | completed => exact ih (frames + 1) c₁
      | quit => rfl
      | failed e => rfl

theorem forall_mem_playActions {A : Action δ → Prop} (h : Action.HoldsOfRun A)
    (hpolled : ∀ keys : ι, ∀ record ∈ (KeyDevice.poll keys).log, A (.note record)) {n frames : Nat}
    {c : Console δ σ κ ι} : ∀ action ∈ playActions frames n c, A action := by
  induction n generalizing frames c with
  | zero => exact fun _ h => absurd h List.not_mem_nil
  | succ n ih =>
      intro action hmem
      rcases List.mem_append.1 hmem with hframe | hrest
      · exact forall_mem_frameActions h hpolled action hframe
      · split at hrest
        · exact ih action hrest
        · exact absurd hrest List.not_mem_nil
        · exact absurd hrest List.not_mem_nil

/-- **A run does what its list of actions says.** -/
theorem run_eq_actAll (limit : Option Nat) (c : Console δ σ κ ι) :
    (run limit c).2.machine = c.machine.actAll (c.actions limit) := by
  unfold run actions
  generalize limit.getD frameCeiling = n
  rcases hstart : c.machine.start with ⟨e | ⟨⟩, m⟩
  · simp [Machine.act, hstart]
  · have hplay := play_eq_actAll n 0 { c with machine := m }
    rcases hplayed : play 0 n { c with machine := m } with ⟨ending, c₁⟩
    rw [hplayed] at hplay
    cases ending with
    | completed => simp [Machine.act, hstart, hplayed, ← hplay]
    | quit => simp [Machine.act, hstart, hplayed, ← hplay]
    | failed e => simp [Machine.act, hstart, hplayed, ← hplay]

/-- **What is true of all that a run may do**, of the records of its keys, too, is true of what it
does. -/
theorem forall_mem_actions {A : Action δ → Prop} (h : Action.HoldsOfRun A)
    (hpolled : ∀ keys : ι, ∀ record ∈ (KeyDevice.poll keys).log, A (.note record))
    {limit : Option Nat} {c : Console δ σ κ ι} : ∀ action ∈ c.actions limit, A action := by
  intro action hmem
  rcases List.mem_cons.1 hmem with rfl | hmem
  · exact h.start
  · split at hmem
    · exact absurd hmem List.not_mem_nil
    · rcases List.mem_append.1 hmem with hplayed | hstop
      · exact forall_mem_playActions h hpolled action hplayed
      · split at hstop
        · rw [List.mem_singleton.1 hstop]
          exact h.stop
        · exact absurd hstop List.not_mem_nil
        · exact absurd hstop List.not_mem_nil

theorem ofRun_of_mem_actions {limit : Option Nat} {c : Console δ σ κ ι} :
    ∀ action ∈ c.actions limit, action.OfRun :=
  forall_mem_actions Action.ofRun_holdsOfRun fun _ _ _ => trivial

/-- A machine that cannot start is not run. -/
theorem run_of_start_error {limit : Option Nat} {c : Console δ σ κ ι} {e : Error}
    (h : c.machine.start.1 = .error e) :
    run limit c = (.failed e, { c with machine := c.machine.start.2 }) := by
  unfold run
  rcases hstart : c.machine.start with ⟨e' | ⟨⟩, m⟩
  · rw [hstart] at h
    cases h
    rfl
  · rw [hstart] at h
    cases h

end

end Console

end Chip8
