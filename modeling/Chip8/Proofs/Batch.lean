/-
**A frame is a batch of steps.**

In a frame the machine executes up to a given number of instructions.  It stops earlier after the
first step that waits for a key or faults, and for no other reason as long as the display can be
cleared.  Between the steps it does nothing to the processor, and after them it shows the picture,
steps the timers if they are due and tells the sound device.  So what a frame makes of the processor
can be said without the machine: it is what so many steps in a row make of it.

The proof follows the batch.  While no step stops the machine, `Chip8.Machine.Passed` carries what
is known of it from one instruction to the next; the step that stops it ends the batch, and
`Chip8.Machine.BatchEnd` says in which of three ways a batch may end.

Main definitions:

* `Chip8.Cpu.stops` — the next step waits for a key or faults;
* `Chip8.Machine.batchLength` — how many instructions a frame executes;
* `Chip8.Machine.ClearsFor` — a display that can be cleared so many times;
* `Chip8.Machine.Passed` — a machine some instructions later, none of which stopped it;
* `Chip8.Machine.BatchEnd` — how a batch ends;
* `Chip8.Machine.Decays` — the timers step in a frame.

Main results:

* `Chip8.Machine.exists_passed` — a batch runs through the steps that do not stop the machine;
* `Chip8.Machine.Passed.batched_of_stops` — a step that stops the machine is the last of its batch;
* `Chip8.Machine.batch_batched` — a batch is as many steps in a row as its length says;
* `Chip8.Machine.tick_eq_steps` — **a frame refines steps in a row**.
-/
import Chip8.Device.Display
import Chip8.Device.Sound
import Chip8.Proofs.Frame

set_option relaxedAutoImplicit false
set_option autoImplicit false

namespace Chip8

/-- The next step waits for a key or faults. -/
def Cpu.stops (c : Cpu) : Bool :=
  match c.step.outcome with
  | .ok (.awaitKey _) | .error _ => true
  | .ok .next | .ok .cleared => false

namespace Machine

variable {δ σ : Type}

/-! ### The length of a batch -/

/-- How many instructions a frame executes: none unless the machine runs, else up to and with the
first that stops it, and never more than it has time for. -/
def batchLength (m : Machine δ σ) : Nat :=
  if m.isRunning then
    match (List.range m.config.cyclesPerFrame).find? fun k => (m.cpu.after k).stops with
    | some k => k + 1
    | none => m.config.cyclesPerFrame
  else 0

/-- A display that can be cleared so many times in a row. -/
def ClearsFor [DisplayDevice δ] : Nat → δ → Prop
  | 0, _ => True
  | n + 1, d => (DisplayDevice.clear d).1 = .ok () ∧ ClearsFor n (DisplayDevice.clear d).2

theorem ClearsFor.mono [DisplayDevice δ] {n : Nat} {d : δ} (h : ClearsFor (n + 1) d) :
    ClearsFor n d := by
  induction n generalizing d with
  | zero => trivial
  | succ n ih => exact ⟨h.1, ih h.2⟩

theorem clearsFor_pictureLog (n : Nat) (d : PictureLog) : ClearsFor n d := by
  induction n generalizing d with
  | zero => trivial
  | succ n ih => exact ⟨rfl, ih _⟩

/-! ### The journal -/

/-- What the journal of a machine has beyond that of an earlier one. -/
def newEvents (m m' : Machine δ σ) : List Event :=
  m'.journal.toList.drop m.journal.size

/-- Where pictures are shown in between only, they are what is new. -/
theorem renders_newEvents {m m₁ m₂ m₃ : Machine δ σ} {events : List Event} (h₁ : NoRender m m₁)
    (h₂ : m₂.journal.toList = m₁.journal.toList ++ events) (h₃ : NoRender m₂ m₃) :
    renders (m.newEvents m₃) = renders events := by
  obtain ⟨before, hbefore, hjournal₁⟩ := h₁
  obtain ⟨after, hafter, hjournal₃⟩ := h₃
  have hnew : m.newEvents m₃ = before ++ (events ++ after) := by
    rw [newEvents, hjournal₃, h₂, hjournal₁]
    simp
  rw [hnew, renders_append, renders_append, hbefore, hafter, List.nil_append, List.append_nil]

/-! ### Steps that pass -/

section Steps

variable [DisplayDevice δ]

/-- The machine `m'` is `m` so many instructions later, none of which stopped it, and its display
can still be cleared for `n` more. -/
structure Passed (m : Machine δ σ) (steps n : Nat) (m' : Machine δ σ) : Prop where
  cpu : m'.cpu = m.cpu.after steps
  config : m'.config = m.config
  state : m'.state = m.state
  frame : m'.frame = m.frame
  clears : ∀ d, m'.display = some d → ClearsFor n d
  quiet : NoRender m m'

/-- An instruction that does not stop the machine succeeds if the display can be cleared. -/
theorem cycle_of_not_stops {m : Machine δ σ} {n : Nat} (hstops : m.cpu.stops = false)
    (hclears : ∀ d, m.display = some d → ClearsFor (n + 1) d) :
    m.cycle.1 = .ok () ∧ Passed m 1 n m.cycle.2 := by
  unfold Cpu.stops at hstops
  split at hstops
  case h_1 => cases hstops
  case h_2 => cases hstops
  case h_3 h =>
    rw [cycle_of_next h]
    exact ⟨rfl, rfl, rfl, rfl, rfl, fun d hd => (hclears d hd).mono, executed_noRender m⟩
  case h_4 h =>
    rw [cycle_of_cleared h]
    have hasked := clearDisplay_asked m.executed
    have hquiet := (executed_noRender m).trans (clearDisplay_noRender m.executed)
    cases hd : m.executed.display with
    | none =>
        have hsame : m.executed.clearDisplay = (.ok (), m.executed) := by
          simp [clearDisplay, hd]
        rw [hsame]
        refine ⟨rfl, rfl, rfl, rfl, rfl, ?_, executed_noRender m⟩
        intro d hd'
        rw [hd] at hd'
        cases hd'
    | some d =>
        obtain ⟨hok, hrest⟩ := hclears d hd
        have hresult : m.executed.clearDisplay.1 = .ok () := by
          simp only [clearDisplay, hd, hok]
          rfl
        have hdisplay : m.executed.clearDisplay.2.display = some (DisplayDevice.clear d).2 := by
          simp [clearDisplay, hd]
        refine ⟨hresult, hasked.cpu, hasked.config, hasked.state, hasked.frame, ?_, hquiet⟩
        intro d' hd'
        rw [hdisplay] at hd'
        cases hd'
        exact hrest

theorem Passed.refl {m : Machine δ σ} {n : Nat} (h : ∀ d, m.display = some d → ClearsFor n d) :
    Passed m 0 n m :=
  ⟨rfl, rfl, rfl, rfl, h, .of_eq rfl⟩

theorem Passed.head {m m₁ m₂ : Machine δ σ} {steps n k : Nat} (h₁ : Passed m 1 k m₁)
    (h₂ : Passed m₁ steps n m₂) : Passed m (steps + 1) n m₂ := by
  refine ⟨?_, h₂.config.trans h₁.config, h₂.state.trans h₁.state, h₂.frame.trans h₁.frame,
    h₂.clears, h₁.quiet.trans h₂.quiet⟩
  rw [h₂.cpu, h₁.cpu, Cpu.after_succ', Cpu.after_succ', Cpu.after_zero]

/-- A batch runs through the steps that do not stop the machine, and what is left of it is a
batch. -/
theorem exists_passed {m : Machine δ σ} {j n : Nat} (hrun : m.isRunning = true)
    (hstops : ∀ i < j, (m.cpu.after i).stops = false)
    (hclears : ∀ d, m.display = some d → ClearsFor (j + n) d) :
    ∃ m', Passed m j n m' ∧ m.batch (j + n) = m'.batch n := by
  induction j generalizing m with
  | zero =>
      rw [Nat.zero_add] at hclears ⊢
      exact ⟨m, Passed.refl hclears, rfl⟩
  | succ j ih =>
      -- the first instruction passes, and what is left is a shorter batch of the machine after it
      have hlen : j + 1 + n = j + n + 1 := by omega
      rw [hlen] at hclears ⊢
      obtain ⟨hok, hpassed⟩ := cycle_of_not_stops (hstops 0 (Nat.succ_pos j)) hclears
      have hcpu : m.cycle.2.cpu = m.cpu.step.cpu := hpassed.cpu
      have hrun' : m.cycle.2.isRunning = true := by
        simpa only [isRunning, hpassed.state] using hrun
      have hstops' : ∀ i < j, (m.cycle.2.cpu.after i).stops = false := by
        intro i hi
        rw [hcpu, ← Cpu.after_succ']
        exact hstops (i + 1) (by omega)
      obtain ⟨m', hrest, hbatch⟩ := ih hrun' hstops' hpassed.clears
      refine ⟨m', hpassed.head hrest, ?_⟩
      rw [← hbatch, batch, if_pos hrun]
      cases hc : m.cycle with
      | mk result m₁ =>
          rw [hc] at hok
          cases hok
          rfl

/-! ### The end of a batch -/

/-- What a batch comes to, and what the machine is up to then: it ran through its time, or its last
step waits for a key, or its last step faults. -/
inductive BatchEnd (c : Cpu) (state : RunState) : Nat → Except Error Unit → RunState → Prop where
  /-- No step stopped the machine. -/
  | through {k : Nat} (h : ∀ j < k, (c.after j).stops = false) : BatchEnd c state k (.ok ()) state
  /-- The last step waits for a key. -/
  | waits {j register : Nat} (h : (c.after j).step.outcome = .ok (.awaitKey register)) :
    BatchEnd c state (j + 1) (.ok ()) (.waitingForKey register)
  /-- The last step faults. -/
  | faults {j : Nat} {e : Error} (h : (c.after j).step.outcome = .error e) :
    BatchEnd c state (j + 1) (.error e) (.halted (c.after j).currentWord)

theorem BatchEnd.state_of_through {c : Cpu} {state state' : RunState} {k : Nat}
    {result : Except Error Unit} (h : BatchEnd c state k result state')
    (hstops : ∀ j < k, (c.after j).stops = false) : state' = state := by
  cases h with
  | through => rfl
  | @waits j register hout =>
      have := hstops j (Nat.lt_succ_self j)
      simp [Cpu.stops, hout] at this
  | @faults j e hout =>
      have := hstops j (Nat.lt_succ_self j)
      simp [Cpu.stops, hout] at this

theorem BatchEnd.of_awaitKey {c : Cpu} {state state' : RunState} {j register : Nat}
    {result : Except Error Unit} (h : BatchEnd c state (j + 1) result state')
    (hout : (c.after j).step.outcome = .ok (.awaitKey register)) :
    state' = .waitingForKey register := by
  cases h with
  | through hstops =>
      have := hstops j (Nat.lt_succ_self j)
      simp [Cpu.stops, hout] at this
  | waits hout' =>
      rw [hout] at hout'
      cases hout'
      rfl
  | faults hout' =>
      rw [hout] at hout'
      cases hout'

theorem BatchEnd.of_error {c : Cpu} {state state' : RunState} {j : Nat} {e : Error}
    {result : Except Error Unit} (h : BatchEnd c state (j + 1) result state')
    (hout : (c.after j).step.outcome = .error e) :
    result = .error e ∧ state' = .halted (c.after j).currentWord := by
  cases h with
  | through hstops =>
      have := hstops j (Nat.lt_succ_self j)
      simp [Cpu.stops, hout] at this
  | waits hout' =>
      rw [hout] at hout'
      cases hout'
  | faults hout' =>
      rw [hout] at hout'
      cases hout'
      exact ⟨rfl, rfl⟩

/-- The machine after a batch, before the picture is shown. -/
structure Batched (m : Machine δ σ) (k : Nat) (after : Except Error Unit × Machine δ σ) : Prop where
  cpu : after.2.cpu = m.cpu.after k
  config : after.2.config = m.config
  frame : after.2.frame = m.frame
  ending : BatchEnd m.cpu m.state k after.1 after.2.state
  quiet : NoRender m after.2

theorem Passed.batched {m m' : Machine δ σ} {j n : Nat} (h : Passed m j n m')
    (hstops : ∀ i < j, (m.cpu.after i).stops = false) : Batched m j (.ok (), m') := by
  refine ⟨h.cpu, h.config, h.frame, ?_, h.quiet⟩
  rw [show (Except.ok (), m').2.state = m.state from h.state]
  exact .through hstops

/-- A step that stops the machine is the last of its batch. -/
theorem Passed.batched_of_stops {m m' : Machine δ σ} {j n : Nat} (h : Passed m j (n + 1) m')
    (hrun : m.isRunning = true) (hstops : (m.cpu.after j).stops = true) :
    Batched m (j + 1) (m'.batch (n + 1)) := by
  have hrun' : m'.isRunning = true := by simpa only [isRunning, h.state] using hrun
  have hcpu : m'.executed.cpu = m.cpu.after (j + 1) := by
    rw [Cpu.after_succ, ← h.cpu]
    rfl
  have hquiet : NoRender m m'.executed := h.quiet.trans (executed_noRender m')
  unfold Cpu.stops at hstops
  split at hstops
  case h_3 => cases hstops
  case h_4 => cases hstops
  case h_1 register hout =>
    have hcycle := cycle_of_awaitKey (m := m') (by rw [h.cpu]; exact hout)
    have hbatch : m'.batch (n + 1) = m'.cycle := by
      rw [batch, if_pos hrun', hcycle]
      exact batch_of_not_running rfl n
    rw [hbatch, hcycle]
    exact ⟨hcpu, h.config, h.frame, .waits hout, hquiet.trans (noRender_note _ _)⟩
  case h_2 e hout =>
    -- the word is the one before the step, as the machine halts at it
    have hcycle := cycle_of_error (m := m') (by rw [h.cpu]; exact hout)
    have hbatch : m'.batch (n + 1) = m'.cycle := by
      rw [batch, if_pos hrun', hcycle]
    rw [hbatch, hcycle, h.cpu]
    exact ⟨hcpu, h.config, h.frame, .faults hout, hquiet.trans (noRender_note _ _)⟩

/-- A batch takes the processor as many steps further as its length says. -/
theorem batch_batched {m : Machine δ σ}
    (hclears : ∀ d, m.display = some d → ClearsFor m.config.cyclesPerFrame d) :
    Batched m m.batchLength (m.batch m.config.cyclesPerFrame) := by
  unfold batchLength
  by_cases hrun : m.isRunning = true
  · rw [if_pos hrun]
    cases hfind : (List.range m.config.cyclesPerFrame).find? fun k => (m.cpu.after k).stops with
    | none =>
        have hstops : ∀ i < m.config.cyclesPerFrame, (m.cpu.after i).stops = false := by
          simpa using List.find?_range_eq_none.1 hfind
        obtain ⟨m', hpassed, hbatch⟩ := exists_passed (n := 0) hrun hstops hclears
        rw [Nat.add_zero] at hbatch
        rw [hbatch]
        exact hpassed.batched hstops
    | some j =>
        obtain ⟨hlast, hj, hfirst⟩ := List.find?_range_eq_some.1 hfind
        obtain ⟨n, hn⟩ : ∃ n, m.config.cyclesPerFrame = j + (n + 1) :=
          ⟨m.config.cyclesPerFrame - j - 1, by have := List.mem_range.1 hj; omega⟩
        have hstops : ∀ i < j, (m.cpu.after i).stops = false := by simpa using hfirst
        rw [hn] at hclears ⊢
        obtain ⟨m', hpassed, hbatch⟩ := exists_passed hrun hstops hclears
        rw [hbatch]
        exact hpassed.batched_of_stops hrun hlast
  · rw [if_neg hrun, batch_of_not_running (Bool.eq_false_iff.2 hrun)]
    exact ⟨rfl, rfl, rfl, .through fun j hj => absurd hj (Nat.not_lt_zero j), .of_eq rfl⟩

end Steps

/-! ### A frame -/

/-- The instructions of the frame end with a fault. -/
def Faults (m : Machine δ σ) : Prop :=
  ∃ j e, m.batchLength = j + 1 ∧ (m.cpu.after j).step.outcome = .error e

theorem BatchEnd.faults_iff {m : Machine δ σ} {result : Except Error Unit} {state' : RunState}
    (h : BatchEnd m.cpu m.state m.batchLength result state') : m.Faults ↔ result ≠ .ok () := by
  constructor
  · rintro ⟨j, e, hlen, hout⟩
    rw [hlen] at h
    rw [(h.of_error hout).1]
    exact nofun
  · intro hne
    generalize hlen : m.batchLength = k at h
    cases h with
    | through => exact absurd rfl hne
    | waits => exact absurd rfl hne
    | faults hout => exact ⟨_, _, hlen, hout⟩

section Frame

variable [DisplayDevice δ] [SoundDevice σ]

/-- The display was asked to show a picture in the frame, and failed. -/
def FailsToRender (m : Machine δ σ) : Prop :=
  ∃ pixels, (pixels, false) ∈ renders (m.newEvents m.tick.2)

/-- The timers step in the frame: nothing goes wrong before, and they are due. -/
def Decays (m : Machine δ σ) : Prop :=
  ¬ m.Faults ∧ ¬ m.FailsToRender ∧ m.frame % max m.config.timerDivider 1 = 0

/-- The pictures of a frame are the one that is shown after the instructions. -/
theorem failsToRender_iff {m : Machine δ σ}
    (hquiet : NoRender m (m.batch m.config.cyclesPerFrame).2) :
    m.FailsToRender ↔ (m.batch m.config.cyclesPerFrame).2.present.1 ≠ .ok () := by
  obtain ⟨events, hasked, hevents⟩ := (m.batch m.config.cyclesPerFrame).2.present_spec
  have hrest : NoRender (m.batch m.config.cyclesPerFrame).2.present.2 m.tick.2 :=
    tick_ends (.of_eq rfl) fun m' hm' => hm'.trans m'.finishFrame_spec.2.2.2
  rw [FailsToRender, renders_newEvents hquiet hasked.journal hrest]
  obtain ⟨hnone, hok⟩ | hone := hevents
  · simp [hnone, hok]
  · rw [hone]
    rcases (m.batch m.config.cyclesPerFrame).2.present.1 with e | ⟨⟩
    · simp [succeeded]
    · simp [succeeded]

/-- What a frame does to the processor, and how its instructions end. -/
theorem tick_spec {m : Machine δ σ}
    (hclears : ∀ d, m.display = some d → ClearsFor m.config.cyclesPerFrame d) :
    (∃ result, BatchEnd m.cpu m.state m.batchLength result m.tick.2.state) ∧
      (m.Decays → m.tick.2.cpu = (m.cpu.after m.batchLength).takeDrawPending.2.tickTimers.2) ∧
      (¬ m.Decays → m.tick.2.cpu = (m.cpu.after m.batchLength).takeDrawPending.2) := by
  have hbatched := batch_batched hclears
  obtain ⟨_, hpresent, -⟩ := (m.batch m.config.cyclesPerFrame).2.present_spec
  have hcpu : (m.batch m.config.cyclesPerFrame).2.present.2.cpu =
      (m.cpu.after m.batchLength).takeDrawPending.2 := by
    rw [hpresent.cpu, hbatched.cpu]
  have hdue : (m.batch m.config.cyclesPerFrame).2.present.2.timersDue = true ↔
      m.frame % max m.config.timerDivider 1 = 0 := by
    rw [timersDue, hpresent.frame, hpresent.config, hbatched.frame, hbatched.config]
    exact beq_iff_eq
  have hdecays : m.Decays ↔ (m.batch m.config.cyclesPerFrame).1 = .ok () ∧
      (m.batch m.config.cyclesPerFrame).2.present.1 = .ok () ∧
      (m.batch m.config.cyclesPerFrame).2.present.2.timersDue = true := by
    rw [Decays, hbatched.ending.faults_iff, failsToRender_iff hbatched.quiet, hdue,
      Classical.not_not, Classical.not_not]
  by_cases hok : (m.batch m.config.cyclesPerFrame).1 = .ok () ∧
      (m.batch m.config.cyclesPerFrame).2.present.1 = .ok ()
  · -- both went well: the rest of the frame is done
    obtain ⟨hfinish, hstate, -⟩ := (m.batch m.config.cyclesPerFrame).2.present.2.finishFrame_spec
    rw [tick_of_ok hok.1 hok.2, hfinish, hstate, hpresent.state, hcpu]
    exact ⟨⟨_, hbatched.ending⟩, fun h => if_pos (hdecays.1 h).2.2,
      fun h => if_neg fun hdue => h (hdecays.2 ⟨hok.1, hok.2, hdue⟩)⟩
  · -- something went wrong: the frame ends here, and the timers stay
    rw [tick_of_not_ok (Classical.not_and_iff_not_or_not.1 hok), hpresent.state, hcpu]
    exact ⟨⟨_, hbatched.ending⟩,
      fun h => absurd ⟨(hdecays.1 h).1, (hdecays.1 h).2.1⟩ hok, fun _ => rfl⟩

/-- **A frame refines steps in a row.**  If the display can be cleared, a frame does to the
processor what `batchLength` steps in a row do, and each timer counts one down, but not below zero,
when nothing went wrong and the timers are due.  The machine goes on as before unless the last of
the steps waits for a key or faults. -/
theorem tick_eq_steps (m : Machine δ σ)
    (hclears : ∀ d, m.display = some d → ClearsFor m.config.cyclesPerFrame d) :
    (m.tick.2.cpu.registers = (m.cpu.after m.batchLength).registers ∧
      m.tick.2.cpu.memory = (m.cpu.after m.batchLength).memory ∧
      m.tick.2.cpu.screen = (m.cpu.after m.batchLength).screen ∧
      m.tick.2.cpu.keypad = (m.cpu.after m.batchLength).keypad ∧
      m.tick.2.cpu.random = (m.cpu.after m.batchLength).random) ∧
    ((∀ j < m.batchLength, (m.cpu.after j).stops = false) → m.tick.2.state = m.state) ∧
    (∀ j register, m.batchLength = j + 1 →
      (m.cpu.after j).step.outcome = .ok (.awaitKey register) →
        m.tick.2.state = .waitingForKey register) ∧
    (∀ j e, m.batchLength = j + 1 → (m.cpu.after j).step.outcome = .error e →
        m.tick.2.state = .halted (m.cpu.after j).currentWord) ∧
    (m.Decays →
      m.tick.2.cpu.timers.delay.toNat = (m.cpu.after m.batchLength).timers.delay.toNat - 1 ∧
      m.tick.2.cpu.timers.sound.toNat = (m.cpu.after m.batchLength).timers.sound.toNat - 1) ∧
    (¬ m.Decays → m.tick.2.cpu.timers = (m.cpu.after m.batchLength).timers) := by
  obtain ⟨⟨result, hending⟩, hdecays, hstays⟩ := tick_spec hclears
  refine ⟨?_, hending.state_of_through, ?_, ?_, ?_, ?_⟩
  · by_cases h : m.Decays
    · rw [hdecays h]
      exact ⟨rfl, rfl, rfl, rfl, rfl⟩
    · rw [hstays h]
      exact ⟨rfl, rfl, rfl, rfl, rfl⟩
  · intro j register hlen hout
    rw [hlen] at hending
    exact hending.of_awaitKey hout
  · intro j e hlen hout
    rw [hlen] at hending
    exact (hending.of_error hout).2
  · intro h
    rw [hdecays h]
    exact ⟨Timers.toNat_stepDown _, Timers.toNat_stepDown _⟩
  · intro h
    rw [hstays h]
    rfl

end Frame

/-- A machine with a program that sets the delay timer to five and then waits for a key. -/
def keyWait : Machine PictureLog Mute :=
  (((new .mute {} 0).attach .new).load [0x61, 0x05, 0xf1, 0x15, 0xf2, 0x0a]).start.2

/-- Its first frame has three instructions, which leave the delay timer at five, and at its end the
timers count down: the delay timer to four, and the sound timer stays at zero. -/
theorem tick_keyWait :
    keyWait.batchLength = 3 ∧ (keyWait.cpu.after 3).timers = ⟨5, 0⟩ ∧
      keyWait.tick.2.cpu.registers = (keyWait.cpu.after 3).registers ∧
      keyWait.tick.2.state = .waitingForKey 2 ∧
      keyWait.tick.2.cpu.timers.delay.toNat = 4 ∧ keyWait.tick.2.cpu.timers.sound.toNat = 0 := by
  have hlen : keyWait.batchLength = 3 := by decide +kernel
  have hword : (keyWait.cpu.after 2).currentWord = 0xf20a := by decide +kernel
  have hwait : (keyWait.cpu.after 2).step.outcome = .ok (.awaitKey 2) := by
    rw [Cpu.step_outcome, hword]
    rfl
  have hevents : keyWait.newEvents keyWait.tick.2 =
      [.noted (.executing 0x200 0x6105 (.setByte 1 5)),
        .noted (.executing 0x202 0xf115 (.setDelay 1)),
        .noted (.executing 0x204 0xf20a (.awaitKey 2)),
        .noted (.waiting 2), .called .update true] := by decide +kernel
  have hdecays : keyWait.Decays := by
    refine ⟨?_, by simp [FailsToRender, renders, hevents], by decide +kernel⟩
    rintro ⟨j, e, hj, hout⟩
    obtain rfl : j = 2 := by omega
    rw [hwait] at hout
    cases hout
  have htimers : (keyWait.cpu.after 3).timers = ⟨5, 0⟩ := by decide +kernel
  have hframe := tick_eq_steps keyWait fun d _ => clearsFor_pictureLog _ d
  rw [hlen, htimers] at hframe
  obtain ⟨⟨hregisters, -⟩, -, hwaits, -, hdown, -⟩ := hframe
  obtain ⟨hdelay, hsound⟩ := hdown hdecays
  exact ⟨hlen, htimers, hregisters, hwaits 2 2 rfl hwait, hdelay, hsound⟩

end Machine

end Chip8
