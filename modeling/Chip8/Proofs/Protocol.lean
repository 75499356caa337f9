/-
**The protocol of a frame.**

A frame makes its requests in a fixed order.  Its instructions ask the display to be cleared, each
time that one of them clears the screen.  Then the display is asked for the picture, at most once; the
sound device for a ring, at most once; and the sound device is told that the frame is over, at most
once.  What goes wrong decides what is still asked for, and it does so differently from request to
request: a fault and a display that cannot be cleared end the instructions but not the picture, while
a picture that fails ends the frame.

The instructions are the part with an unbounded number of requests.  What they ask for follows the
course of the batch: `Chip8.Clearing` has one case for each way in which an instruction goes on or ends
the batch, and what is said about a batch is proved by induction on it.

Main definitions:

* `Chip8.Cpu.clears`, `Chip8.Cpu.draws` — the word that clears the screen, and those that draw;
* `Chip8.Machine.requests` — the requests among some events, and whether they succeeded;
* `Chip8.Clearing` — what the instructions of a batch ask for, and how the batch ends;
* `Chip8.Machine.shown`, `Chip8.Machine.rang`, `Chip8.Machine.told` — the requests of the other parts
  of a frame;
* `Chip8.Machine.Asks` — the requests of a frame, and when each is made.

Main results:

* `Chip8.Clearing.length_eq`, `Chip8.Clearing.ok_iff`, `Chip8.Clearing.last_of_failure` — the requests
  of a batch;
* `Chip8.Machine.batch_clearing`, `Chip8.Machine.requests_present`,
  `Chip8.Machine.requests_finishFrame` — the parts of a frame;
* `Chip8.Machine.Ready.asks` — a frame of a machine that has a display if it runs;
* `Chip8.Machine.requests_of_tick` — **every frame follows the protocol**.
-/
import Chip8.Proofs.Course
import Chip8.Proofs.Requests
import Chip8.Proofs.Pending
import Chip8.Proofs.Words

set_option relaxedAutoImplicit false
set_option autoImplicit false

namespace Chip8

/-- The request that an entry tells of, and whether it succeeded. -/
def Event.request? : Event → Option (DeviceCall × Bool)
  | noted _ => none
  | called call succeeded => some (call, succeeded)

/-! ### Words that clear the screen, and words that draw -/

namespace Instruction

/-- The word that clears the screen. -/
def clearWord : UInt16 :=
  0x00e0

/-- A word from `d000` to `dfff`. -/
def IsDraw (word : UInt16) : Prop :=
  word.toNat / 0x1000 = 0xd

instance (word : UInt16) : Decidable (IsDraw word) :=
  inferInstanceAs (Decidable (word.toNat / 0x1000 = 0xd))

/-- Whether an instruction clears the screen. -/
def isClear : Instruction → Bool
  | clearScreen => true
  | _ => false

/-- Only one word clears the screen. -/
theorem isClear_decode (word : UInt16) : (decode word).isClear = decide (word = clearWord) := by
  by_cases hclear : word = clearWord
  · rw [hclear]
    rfl
  · rw [decide_eq_false hclear]
    cases hinstruction : decode word with
    | clearScreen => exact absurd (decode_eq_iff.1 hinstruction) hclear
    | _ => rfl

/-- The words from `d000` to `dfff` draw, and no others do. -/
theorem isDraw_decode (word : UInt16) : (decode word).isDraw = decide (IsDraw word) := by
  by_cases hdraw : IsDraw word
  · have hdigit : word.toNat / 0x1000 = 0xd := hdraw
    rw [decide_eq_true hdraw]
    simp [decode, hdigit, isDraw]
  · rw [decide_eq_false hdraw]
    cases hinstruction : decode word with
    | draw x y height => exact absurd (digit_of_decode hinstruction rfl) hdraw
    | _ => rfl

end Instruction

namespace Cpu

/-- Whether the next word clears the screen. -/
def clears (c : Cpu) : Bool :=
  decide (c.currentWord = Instruction.clearWord)

/-- Whether the next word draws. -/
def draws (c : Cpu) : Bool :=
  decide (Instruction.IsDraw c.currentWord)

theorem cleared_execute (c : Cpu) (instruction : Instruction) :
    (c.execute instruction).1 = .ok .cleared ↔ instruction.isClear = true := by
  cases instruction
  case ret =>
      rcases hpop : c.registers.pop with e | r <;> simp [execute, hpop, Instruction.isClear]
  case call target =>
      rcases hpush : c.registers.push with e | r <;> simp [execute, hpush, Instruction.isClear]
  all_goals simp [execute, Instruction.isClear]

theorem clears_iff (c : Cpu) : c.step.outcome = .ok .cleared ↔ c.clears = true := by
  rw [clears, ← Instruction.isClear_decode]
  exact cleared_execute { c with registers := c.registers.skip } (.decode c.currentWord)

theorem proceeds_of_clears {c : Cpu} (h : c.clears = true) : c.Proceeds :=
  ⟨.cleared, c.clears_iff.2 h⟩

end Cpu

/-! ### What the instructions of a batch ask for -/

/-- The instructions of a batch, each by the processor before it, with the answers to their requests
to clear the display and the result of the batch.  An instruction that goes on is followed by others;
a display that cannot be cleared and a fault are the end of it. -/
inductive Clearing : List Cpu → List Bool → Except Error Unit → Prop where
  | done : Clearing [] [] (.ok ())
  | passes {c : Cpu} {steps : List Cpu} {cleared : List Bool} {result : Except Error Unit}
    (hproceeds : c.Proceeds) (hclears : c.clears = false) (h : Clearing steps cleared result) :
    Clearing (c :: steps) cleared result
  | clears {c : Cpu} {steps : List Cpu} {cleared : List Bool} {result : Except Error Unit}
    (hclears : c.clears = true) (h : Clearing steps cleared result) :
    Clearing (c :: steps) (true :: cleared) result
  | fails {c : Cpu} {e : Error} (hclears : c.clears = true) : Clearing [c] [false] (.error e)
  | faults {c : Cpu} {e : Error} (hfault : ¬ c.Proceeds) : Clearing [c] [] (.error e)

namespace Clearing

variable {steps : List Cpu} {cleared : List Bool} {result : Except Error Unit}

/-- The display is asked to be cleared as often as an instruction clears the screen. -/
theorem length_eq (h : Clearing steps cleared result) :
    cleared.length = steps.countP Cpu.clears := by
  induction h with
  | done => rfl
  | passes _ hclears _ ih => simp [hclears, ih]
  | clears hclears _ ih => simp [hclears, ih]
  | fails hclears => simp [hclears]
  | @faults c _ hfault =>
      have hclears : c.clears = false :=
        Bool.eq_false_iff.2 fun hclears => hfault (Cpu.proceeds_of_clears hclears)
      simp [hclears]

/-- A batch succeeds if no instruction faults and the display can be cleared. -/
theorem ok_iff (h : Clearing steps cleared result) :
    result = .ok () ↔ (∀ c ∈ steps, c.Proceeds) ∧ false ∉ cleared := by
  induction h with
  | done => simp
  | passes hproceeds _ _ ih => simp [hproceeds, ih]
  | clears hclears _ ih => simp [Cpu.proceeds_of_clears hclears, ih]
  | fails => simp
  | faults hfault => simp [hfault]

/-- A failure to clear the display is the last request of a batch, and its instruction is the last
one. -/
theorem last_of_failure (h : Clearing steps cleared result) (hfailure : false ∈ cleared) :
    ∃ before c, steps = before ++ [c] ∧ c.clears = true ∧
      cleared = List.replicate (before.countP Cpu.clears) true ++ [false] := by
  induction h with
  | done => simp at hfailure
  | @passes first _ _ _ _ hclears _ ih =>
      obtain ⟨before, c, rfl, hlast, rfl⟩ := ih hfailure
      exact ⟨first :: before, c, rfl, hlast, by simp [hclears]⟩
  | @clears first _ _ _ hclears _ ih =>
      obtain ⟨before, c, rfl, hlast, rfl⟩ := ih (by simpa using hfailure)
      exact ⟨first :: before, c, rfl, hlast, by simp [hclears, List.replicate_succ]⟩
  | @fails c _ hclears => exact ⟨[], c, rfl, hclears, rfl⟩
  | faults => simp at hfailure

end Clearing

namespace Machine

variable {δ σ : Type}

/-- The requests that were made, and whether they succeeded. -/
def requests (events : List Event) : List (DeviceCall × Bool) :=
  events.filterMap Event.request?

@[simp] theorem requests_append (before after : List Event) :
    requests (before ++ after) = requests before ++ requests after :=
  List.filterMap_append

@[simp] theorem requests_noted (records : List Record) :
    requests (records.map Event.noted) = [] := by
  simp [requests, Event.request?]

theorem requests_self (m : Machine δ σ) : requests (m.newEvents m) = [] := by
  rw [newEvents_eq (List.append_nil _).symm]
  rfl

theorem succeeded_iff {ε : Type} {result : Except ε Unit} :
    succeeded result = true ↔ result = .ok () := by
  rcases result with e | ⟨⟩ <;> simp [succeeded]

section Instructions

variable [DisplayDevice δ]

/-- An instruction asks for nothing, unless it clears the screen and there is a display. -/
theorem requests_cycle (m : Machine δ σ) :
    requests (m.newEvents m.cycle.2) =
      if m.cpu.clears && m.display.isSome then [(.clear, succeeded m.cycle.1)] else [] := by
  have hexecuted : m.executed.journal.toList =
      m.journal.toList ++ m.cpu.step.log.map Event.noted := by
    simp [executed, noteAll]
  by_cases hclears : m.cpu.clears = true
  · have hasked := m.executed.clearDisplay_asked.journal
    rw [hexecuted, List.append_assoc] at hasked
    rw [cycle_of_cleared (m.cpu.clears_iff.2 hclears), newEvents_eq hasked, hclears]
    have hdisplay : m.executed.display = m.display := rfl
    cases hd : m.display <;> simp [displayEvents, requests, Event.request?, hdisplay, hd]
  · have hclears' := Bool.eq_false_iff.2 hclears
    have hquiet : ∃ records : List Record,
        m.cycle.2.journal.toList = m.journal.toList ++ records.map Event.noted := by
      rcases hout : m.cpu.step.outcome with e | flow
      · rw [cycle_of_error hout]
        exact ⟨m.cpu.step.log ++ [.halting e], by simp [note, hexecuted]⟩
      · cases flow with
        | next =>
            rw [cycle_of_next hout]
            exact ⟨_, hexecuted⟩
        | cleared => exact absurd (m.cpu.clears_iff.1 hout) hclears
        | awaitKey register =>
            rw [cycle_of_awaitKey hout]
            exact ⟨m.cpu.step.log ++ [.waiting register], by simp [note, hexecuted]⟩
    obtain ⟨records, hjournal⟩ := hquiet
    rw [newEvents_eq hjournal, requests_noted, hclears']
    rfl

/-- An instruction that fails and does not clear the screen is a fault. -/
theorem not_proceeds_of_cycle {m : Machine δ σ} {e : Error} (hclears : m.cpu.clears = false)
    (h : m.cycle.1 = .error e) : ¬ m.cpu.Proceeds := by
  rintro ⟨flow, hout⟩
  cases flow with
  | next =>
      rw [cycle_of_next hout] at h
      cases h
  | cleared => exact Bool.eq_false_iff.1 hclears (m.cpu.clears_iff.1 hout)
  | awaitKey register =>
      rw [cycle_of_awaitKey hout] at h
      cases h

/-- **What the instructions of a batch ask for.** -/
theorem batch_clearing (n : Nat) {m : Machine δ σ}
    (hattached : m.isRunning = true → m.display.isSome = true) :
    ∃ cleared, Clearing (m.course n) cleared (m.batch n).1 ∧
      requests (m.newEvents (m.batch n).2) = cleared.map (.clear, ·) := by
  induction n generalizing m with
  | zero => exact ⟨[], .done, m.requests_self⟩
  | succ n ih =>
      have hfirst := m.cycle_executes
      have hrequests := m.requests_cycle
      obtain ⟨-, hcourse, hbatch⟩ | ⟨e, m₁, hrun, hcycle, hcourse, hbatch⟩ |
        ⟨m₁, hrun, hcycle, hcourse, hbatch⟩ := m.course_cases n
      · rw [hcourse, hbatch]
        exact ⟨[], .done, m.requests_self⟩
      · rw [hattached hrun, Bool.and_true, hcycle] at hrequests
        rw [hcourse, hbatch]
        cases hclears : m.cpu.clears with
        | true =>
            rw [hclears] at hrequests
            exact ⟨[false], .fails hclears, hrequests⟩
        | false =>
            rw [hclears] at hrequests
            exact ⟨[], .faults (not_proceeds_of_cycle hclears (by rw [hcycle])), hrequests⟩
      · rw [hattached hrun, Bool.and_true, hcycle] at hrequests
        rw [hcycle] at hfirst
        obtain ⟨cleared, hclearing, hlater⟩ :=
          ih (m := m₁) fun _ => hfirst.attached.trans (hattached hrun)
        obtain ⟨_, hrest⟩ := batch_executes n m₁
        rw [hcourse, hbatch, hfirst.adds.newEvents_append hrest.adds, requests_append, hlater]
        cases hclears : m.cpu.clears with
        | true =>
            rw [hclears] at hrequests
            exact ⟨true :: cleared, .clears hclears hclearing, by rw [hrequests]; rfl⟩
        | false =>
            rw [hclears] at hrequests
            have hproceeds := proceeds_of_cycle (m := m) (by rw [hcycle])
            exact ⟨cleared, .passes hproceeds hclears hclearing, by rw [hrequests]; rfl⟩

/-- What is remembered of a drawing after a batch. -/
theorem drawPending_batch (n : Nat) (m : Machine δ σ) :
    (m.batch n).2.cpu.drawPending = (m.cpu.drawPending || (m.course n).any Cpu.draws) := by
  obtain ⟨steps, hbatch⟩ := batch_executes n m
  have hexecuted := hbatch.adds.instructions
  rw [instructions_batch] at hexecuted
  rw [hbatch.cpu, Cpu.drawPending_after, ← hexecuted, List.any_map]
  congr 2
  funext c
  exact Instruction.isDraw_decode c.currentWord

end Instructions

/-! ### What the rest of a frame asks for -/

section Rest

/-- The answer to the request for a picture, if one is made. -/
def shown [DisplayDevice δ] (m : Machine δ σ) : Option Bool :=
  if m.cpu.drawPending && m.display.isSome then some (succeeded m.present.1) else none

theorem requests_present [DisplayDevice δ] (m : Machine δ σ) :
    requests (m.newEvents m.present.2) = m.shown.toList.map (.render m.cpu.screen.pixels, ·) := by
  rw [newEvents_eq m.present_journal, shown]
  cases hpending : m.cpu.drawPending with
  | false => rfl
  | true => cases hd : m.display <;> simp [displayEvents, requests, Event.request?, hd]

theorem present_ok_iff [DisplayDevice δ] (m : Machine δ σ) :
    m.present.1 = .ok () ↔ m.shown ≠ some false := by
  rw [← succeeded_iff, shown]
  by_cases hasks : (m.cpu.drawPending && m.display.isSome) = true
  · simp [hasks]
  · -- without a request there is nothing to fail
    have hok : m.present.1 = .ok () := by
      cases hpending : m.cpu.drawPending with
      | false => simp [present, Cpu.takeDrawPending, hpending]
      | true =>
          have hd : m.display = none := by simpa [hpending] using hasks
          simp [present, Cpu.takeDrawPending, renderDisplay, hpending, hd]
    simp [hasks, succeeded_iff.2 hok]

variable [SoundDevice σ]

/-- The answer to the request for a ring, if one is made. -/
def rang (m : Machine δ σ) : Option Bool :=
  if m.timersDue && m.cpu.timers.sound == 1 then some (succeeded m.decay.1) else none

/-- The answer of the sound device when it is told that the frame is over, if it is. -/
def told (m : Machine δ σ) : Option Bool :=
  if succeeded m.decay.1 then some (succeeded m.finishFrame.1) else none

theorem requests_finishFrame (m : Machine δ σ) :
    requests (m.newEvents m.finishFrame.2) =
      m.rang.toList.map (.beep, ·) ++ m.told.toList.map (.update, ·) := by
  have hjournal := m.finishFrame_journal
  rw [decay_journal, List.append_assoc] at hjournal
  rw [newEvents_eq hjournal, requests_append, rang, told]
  congr 1 <;> split <;> rfl

theorem decay_ok_iff (m : Machine δ σ) : succeeded m.decay.1 = true ↔ m.rang ≠ some false := by
  rw [rang]
  by_cases hasks : (m.timersDue && m.cpu.timers.sound == 1) = true
  · simp [hasks]
  · have hok : m.decay.1 = .ok () := by
      cases hdue : m.timersDue with
      | false => simp [decay, hdue]
      | true =>
          have hsound : m.cpu.timers.sound ≠ 1 := by simpa [hdue] using hasks
          simp [decay, hdue, Cpu.tickTimers, Timers.tick, hsound]
    simp [hasks, succeeded_iff.2 hok]

theorem finishFrame_ok_iff (m : Machine δ σ) :
    m.finishFrame.1 = .ok () ↔ m.rang ≠ some false ∧ m.told ≠ some false := by
  obtain ⟨-, -, hrings⟩ := m.finishFrame_frame
  rw [← decay_ok_iff, told]
  cases hrang : succeeded m.decay.1 with
  | true => simp [← succeeded_iff]
  | false =>
      rw [hrang] at hrings
      simpa using hrings

end Rest

/-! ### The requests of a frame -/

section Frame

variable [DisplayDevice δ]

/-- The first part of a frame, up to its picture: what it asks for, and when it gets through. -/
theorem Ready.asks_presented {m : Machine δ σ} (h : m.Ready) :
    ∃ cleared shown, Clearing (m.course m.config.cyclesPerFrame) cleared
        (m.batch m.config.cyclesPerFrame).1 ∧
      requests (m.newEvents m.presented) = cleared.map (.clear, ·) ++
        shown.toList.map
          (.render (m.cpu.after (m.course m.config.cyclesPerFrame).length).screen.pixels, ·) ∧
      (shown.isSome = true ↔ m.display.isSome = true ∧
        (m.cpu.drawPending = true ∨ ∃ c ∈ m.course m.config.cyclesPerFrame, c.draws = true)) ∧
      (m.GetsThrough ↔ (∀ c ∈ m.course m.config.cyclesPerFrame, c.Proceeds) ∧
        false ∉ cleared ∧ shown ≠ some false) := by
  have hattached : m.isRunning = true → m.display.isSome = true :=
    fun hrun => h.attached (by simp [isRunning_iff.1 hrun])
  obtain ⟨cleared, hclearing, hbatch⟩ := batch_clearing m.config.cyclesPerFrame hattached
  obtain ⟨_, hexecutes⟩ := batch_executes m.config.cyclesPerFrame m
  refine ⟨cleared, (m.batch m.config.cyclesPerFrame).2.shown, hclearing, ?_, ?_, ?_⟩
  · rw [presented, hexecutes.adds.newEvents_append (present_adds _), requests_append, hbatch,
      requests_present, cpu_batch]
  · rw [shown, drawPending_batch, hexecutes.attached, ← List.any_eq_true, ← Bool.or_eq_true,
      and_comm, ← Bool.and_eq_true]
    split
    · rename_i hasks
      simp [hasks]
    · rename_i hnot
      simp [hnot]
  · rw [GetsThrough, hclearing.ok_iff, present_ok_iff, and_assoc]

variable [SoundDevice σ]

/-- The answers to the requests of a frame: to clear the display, to show the picture, to ring and to
heed the end of the frame; and when each of these requests is made. -/
structure Asks (m : Machine δ σ) (cleared : List Bool) (shown rang told : Option Bool) : Prop where
  /-- These are all requests, in their order.  The picture is the one that the instructions make. -/
  requests_eq : requests (m.newEvents m.tick.2) =
    cleared.map (.clear, ·) ++
      shown.toList.map
        (.render (m.cpu.after (m.course m.config.cyclesPerFrame).length).screen.pixels, ·) ++
      rang.toList.map (.beep, ·) ++ told.toList.map (.update, ·)
  /-- The display is to be cleared once for each instruction that clears the screen. -/
  cleared_length : cleared.length = (m.course m.config.cyclesPerFrame).countP Cpu.clears
  /-- A failure to clear the display is the last one of these requests, and its instruction the last
  one of the frame. -/
  cleared_last : false ∈ cleared → ∃ before c,
    m.course m.config.cyclesPerFrame = before ++ [c] ∧ c.clears = true ∧
      cleared = List.replicate (before.countP Cpu.clears) true ++ [false]
  /-- The picture is asked for if there is a display and something was drawn. -/
  shown_iff : shown.isSome = true ↔ m.display.isSome = true ∧
    (m.cpu.drawPending = true ∨ ∃ c ∈ m.course m.config.cyclesPerFrame, c.draws = true)
  /-- The ring is asked for if nothing went wrong before, the timers are due and the sound timer is at
  its last step. -/
  rang_iff : rang.isSome = true ↔
    (∀ c ∈ m.course m.config.cyclesPerFrame, c.Proceeds) ∧ false ∉ cleared ∧ shown ≠ some false ∧
      max m.config.timerDivider 1 ∣ m.frame ∧
      (m.cpu.after (m.course m.config.cyclesPerFrame).length).timers.sound = 1
  /-- The sound device is told of the end of the frame if nothing went wrong before. -/
  told_iff : told.isSome = true ↔
    (∀ c ∈ m.course m.config.cyclesPerFrame, c.Proceeds) ∧ false ∉ cleared ∧ shown ≠ some false ∧
      rang ≠ some false
  /-- The frame succeeds if neither an instruction nor a request fails. -/
  ok_iff : m.tick.1 = .ok () ↔
    (∀ c ∈ m.course m.config.cyclesPerFrame, c.Proceeds) ∧
      ∀ request ∈ requests (m.newEvents m.tick.2), request.2 = true

/-- None of the answers to requests of one kind is a failure. -/
theorem forall_answers_iff (call : DeviceCall) (answers : List Bool) :
    (∀ request ∈ answers.map (call, ·), request.2 = true) ↔ false ∉ answers := by
  induction answers with
  | nil => simp
  | cons answer answers ih => cases answer <;> simp_all

/-- None of the answers to the requests of a frame is a failure. -/
theorem forall_requests_iff {cleared : List Bool} {shown rang told : Option Bool}
    {picture : List UInt8} :
    (∀ request ∈ cleared.map (DeviceCall.clear, ·) ++ shown.toList.map (.render picture, ·) ++
        rang.toList.map (.beep, ·) ++ told.toList.map (.update, ·), request.2 = true) ↔
      false ∉ cleared ∧ shown ≠ some false ∧ rang ≠ some false ∧ told ≠ some false := by
  simp only [List.forall_mem_append, forall_answers_iff, Option.mem_toList, ne_eq, and_assoc]

/-- The second part of a frame, after its picture.  A frame that does not get through has none. -/
theorem asks_tick (m : Machine δ σ) :
    ∃ rang told : Option Bool,
      requests (m.newEvents m.tick.2) =
        requests (m.newEvents m.presented) ++ rang.toList.map (.beep, ·) ++
          told.toList.map (.update, ·) ∧
      (rang.isSome = true ↔
        m.GetsThrough ∧ m.timersDue = true ∧ m.presented.cpu.timers.sound = 1) ∧
      (told.isSome = true ↔ m.GetsThrough ∧ rang ≠ some false) ∧
      (m.tick.1 = .ok () ↔ m.GetsThrough ∧ rang ≠ some false ∧ told ≠ some false) := by
  obtain ⟨_, hpresents⟩ := m.presented_spec
  by_cases hthrough : m.GetsThrough
  · refine ⟨m.presented.rang, m.presented.told, ?_, ?_, ?_, ?_⟩
    · rw [tick_of_getsThrough hthrough, hpresents.adds.newEvents_append (finishFrame_adds _),
        requests_append, requests_finishFrame, List.append_assoc]
    · rw [rang, presented_timersDue]
      split
      · rename_i hrings
        simpa [hthrough] using hrings
      · rename_i hnot
        simpa [hthrough] using hnot
    · rw [← decay_ok_iff, told]
      cases hrang : succeeded m.presented.decay.1 <;> simp [hthrough]
    · rw [tick_of_getsThrough hthrough, finishFrame_ok_iff]
      simp [hthrough]
  · refine ⟨none, none, ?_, by simp [hthrough], by simp [hthrough], ?_⟩
    · rw [tick_of_not_getsThrough hthrough]
      simp
    · have hfails : m.tick.1 ≠ .ok () := fun hok => hthrough (getsThrough_of_ok hok)
      simp [hthrough, hfails]

/-- **A frame follows the protocol**, if the machine has a display in case that it runs. -/
theorem Ready.asks {m : Machine δ σ} (h : m.Ready) :
    ∃ cleared shown rang told, m.Asks cleared shown rang told := by
  obtain ⟨cleared, shown, hclearing, hpresented, hshown, hthrough⟩ := h.asks_presented
  obtain ⟨rang, told, htick, hrang, htold, hok⟩ := m.asks_tick
  rw [hpresented] at htick
  have hsound : m.presented.cpu.timers =
      (m.cpu.after (m.course m.config.cyclesPerFrame).length).timers := by
    obtain ⟨_, hasked, -⟩ := (m.batch m.config.cyclesPerFrame).2.present_spec
    rw [presented, hasked.cpu, ← cpu_batch]
    rfl
  refine ⟨cleared, shown, rang, told, htick, hclearing.length_eq, hclearing.last_of_failure, hshown,
    ?_, ?_, ?_⟩
  · rw [hrang, hthrough, timersDue_iff, hsound, and_assoc, and_assoc]
  · rw [htold, hthrough, and_assoc, and_assoc]
  · rw [hok, hthrough, htick, forall_requests_iff, and_assoc, and_assoc]

variable {κ ι : Type} [FrameClock κ] [KeyDevice ι]

/-- **Every frame follows the protocol.**  Whatever is done with a new machine, runs included, is a
list of actions.  A frame that is done after any such list makes its requests in this order: to clear
the display, once for each of its instructions that clears the screen; to show the picture, to ring,
and to heed the end of the frame, each of them at most once.  If the display cannot be cleared,
that is the last of these requests, and its instruction is the last one.  The picture is asked for if
there is a display and something was drawn in the frame or was still to be shown.  The ring is asked
for if no instruction faulted, the display did not fail, the timers are due and the sound timer is at
its last step; the end of the frame is told if nothing at all failed before.  And the frame succeeds
if no instruction and no request failed. -/
theorem requests_of_tick (sound : σ) (config : Config) (entropy : UInt64) :
    let start : Machine δ σ := new sound config entropy
    (∀ interventions : List (Intervention δ κ ι),
      start.interveneAll interventions = start.actAll (start.trace interventions)) ∧
      ∀ actions : List (Action δ),
        ∃ cleared shown rang told, (start.actAll actions).Asks cleared shown rang told := by
  refine ⟨interveneAll_eq_actAll _, fun actions => ?_⟩
  exact ((ready_new (δ := δ) sound config entropy).actAll actions).asks

end Frame

end Machine

end Chip8
