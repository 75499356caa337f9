/-
**The log is a faithful trace.**

At its finest level the log tells of each instruction: where it was found, its word and its text.
It does so before the instruction is executed, so that one that fails is told of, too, and the
warning about a word that is no instruction comes right behind it.  The machine itself notes when a
fault halts it.  These records come from two layers, and others get in between, so whether they are
complete and in order is a question about whole histories.

A list of records is a chronicle of some steps and some faults if it is made of what the steps note
and of one record for each fault, with nothing else in it that is as severe.  Chronicles can be put
one behind the other.  So it is enough to see what an instruction adds, what an action adds, and that
the rest of a history is made of them.  That the machine was halted is read off from its run state,
before and after each action, and not from the log.

Main definitions:

* `Chip8.Cpu.traced` — the record of an instruction;
* `Chip8.Chronicle` — **records that tell of these steps and these faults**;
* `Chip8.WarnsAtUndefined` — warnings stand behind the undefined words;
* `Chip8.RunState.haltsAt`, `Chip8.Machine.haltsOf` — the transitions into the halted state;
* `Chip8.Machine.Tells`, `Chip8.Machine.Recounts` — the log grew by a chronicle of these steps and
  of these faults, or halts.

Main results:

* `Chip8.Chronicle.append` — chronicles in a row;
* `Chip8.Chronicle.traces`, `Chip8.Chronicle.errors`, `Chip8.Chronicle.warns` — what can be read in a
  chronicle;
* `Chip8.Machine.cycle_tells_halt`, `Chip8.Machine.batch_tells`, `Chip8.Machine.tick_tells` — what an
  instruction, a batch and a frame add to the log;
* `Chip8.Machine.recounts_act`, `Chip8.Machine.recounts_undergoAll` — an action, and a history;
* `Chip8.Machine.log_faithful` — **the log is a faithful trace**.
-/
import Chip8.Proofs.Accounts
import Chip8.Proofs.Fault
import Chip8.Proofs.Replay
import Mathlib.Data.List.Forall2

set_option relaxedAutoImplicit false
set_option autoImplicit false

namespace Chip8

/-! ### What a step notes -/

namespace Cpu

/-- The record of the next instruction: where it is, its word and the instruction. -/
def traced (c : Cpu) : Record :=
  .executing c.registers.pc c.currentWord (.decode c.currentWord)

theorem log_of_undefined {c : Cpu} (h : Word.Undefined c.currentWord) :
    c.step.log = [c.traced, .ignored c.currentWord] := by
  rw [step_log, traced, Instruction.decode_of_undefined h]
  rfl

theorem log_of_defined {c : Cpu} (h : ¬ Word.Undefined c.currentWord) :
    c.step.log = [c.traced] := by
  rw [step_log, traced]
  unfold notes
  split
  · rename_i word hdecode
    exact absurd (Instruction.decode_eq_iff.1 hdecode).1 h
  · rfl

end Cpu

/-! ### Chronicles -/

/-- A record of something that is neither an instruction nor reason to worry. -/
def Record.IsAside (record : Record) : Prop :=
  record.level = .info ∨ record.level = .debug

theorem Record.IsAside.level_ne {record : Record} (h : record.IsAside) {level : Level}
    (hinfo : level ≠ .info) (hdebug : level ≠ .debug) : record.level ≠ level := by
  rcases h with hlevel | hlevel
  · rw [hlevel]
    exact hinfo.symm
  · rw [hlevel]
    exact hdebug.symm

/-- Records that tell of these steps of a processor, and of these faults that halt a machine. -/
inductive Chronicle : List Cpu → List Error → List Record → Prop where
  | nil : Chronicle [] [] []
  /-- What a step notes stands together. -/
  | step (c : Cpu) {steps : List Cpu} {faults : List Error} {records : List Record}
      (h : Chronicle steps faults records) : Chronicle (c :: steps) faults (c.step.log ++ records)
  | halting (e : Error) {steps : List Cpu} {faults : List Error} {records : List Record}
      (h : Chronicle steps faults records) :
      Chronicle steps (e :: faults) (.halting e :: records)
  | aside (record : Record) (haside : record.IsAside) {steps : List Cpu} {faults : List Error}
      {records : List Record} (h : Chronicle steps faults records) :
      Chronicle steps faults (record :: records)

/-- A warning stands right behind the record of each undefined word, and nowhere else. -/
structure WarnsAtUndefined (records : List Record) : Prop where
  first : ∀ word, records[0]? ≠ some (.ignored word)
  next : ∀ i word, records[i + 1]? = some (.ignored word) ↔
    ∃ pc, records[i]? = some (.executing pc word (.decode word)) ∧ Word.Undefined word
  only : ∀ record ∈ records, record.level = .warn → ∃ word, record = .ignored word

namespace WarnsAtUndefined

variable {records : List Record}

theorem nil : WarnsAtUndefined [] :=
  ⟨by simp, by simp, by simp⟩

/-- A record in front that has nothing to do with warnings. -/
theorem cons {record : Record} (h : WarnsAtUndefined records) (hlevel : record.level ≠ .warn)
    (hdefined : ∀ pc word, record = .executing pc word (.decode word) → ¬ Word.Undefined word) :
    WarnsAtUndefined (record :: records) := by
  refine ⟨?_, ?_, ?_⟩
  · rintro word heq
    rw [List.getElem?_cons_zero, Option.some.injEq] at heq
    rw [heq] at hlevel
    exact hlevel rfl
  · intro i word
    cases i with
    | zero =>
        rw [List.getElem?_cons_succ, List.getElem?_cons_zero]
        constructor
        · intro heq
          exact absurd heq (h.first word)
        · rintro ⟨pc, heq, hundefined⟩
          exact absurd hundefined (hdefined pc word (Option.some.inj heq))
    | succ i =>
        rw [List.getElem?_cons_succ, List.getElem?_cons_succ]
        exact h.next i word
  · intro r hmem hwarn
    rcases List.mem_cons.1 hmem with rfl | hmem
    · exact absurd hwarn hlevel
    · exact h.only r hmem hwarn

/-- The record of an undefined word in front, and the warning that goes with it. -/
theorem cons_ignored {pc word : UInt16} (h : WarnsAtUndefined records)
    (hundefined : Word.Undefined word) :
    WarnsAtUndefined (.executing pc word (.decode word) :: .ignored word :: records) := by
  refine ⟨by simp, ?_, ?_⟩
  · intro i word'
    rcases i with _ | _ | i
    · constructor
      · intro heq
        cases heq
        exact ⟨pc, rfl, hundefined⟩
      · rintro ⟨pc', heq, -⟩
        cases heq
        rfl
    · constructor
      · intro heq
        exact absurd heq (h.first word')
      · rintro ⟨pc', heq, -⟩
        cases heq
    · exact h.next i word'
  · intro r hmem hwarn
    rcases List.mem_cons.1 hmem with rfl | hmem
    · cases hwarn
    · rcases List.mem_cons.1 hmem with rfl | hmem
      · exact ⟨word, rfl⟩
      · exact h.only r hmem hwarn

end WarnsAtUndefined

namespace Chronicle

variable {steps steps' : List Cpu} {faults faults' : List Error} {records records' : List Record}

/-- **Chronicles in a row.** -/
theorem append (h : Chronicle steps faults records) (h' : Chronicle steps' faults' records') :
    Chronicle (steps ++ steps') (faults ++ faults') (records ++ records') := by
  induction h with
  | nil => exact h'
  | step c _ ih =>
      rw [List.append_assoc]
      exact .step c ih
  | halting e _ ih => exact .halting e ih
  | aside record haside _ ih => exact .aside record haside ih

theorem of_step (c : Cpu) : Chronicle [c] [] c.step.log := by
  have hstep := Chronicle.nil.step c
  rwa [List.append_nil] at hstep

/-- **There is one trace record for each step, in order.** -/
theorem traces (h : Chronicle steps faults records) :
    records.filter (fun record => record.level == .trace) = steps.map Cpu.traced := by
  induction h with
  | nil => rfl
  | step c _ ih =>
      by_cases hundefined : Word.Undefined c.currentWord
      · rw [Cpu.log_of_undefined hundefined, List.map_cons, ← ih]
        rfl
      · rw [Cpu.log_of_defined hundefined, List.map_cons, ← ih]
        rfl
  | halting e _ ih => exact ih
  | aside record haside _ ih =>
      have hlevel : record.level ≠ .trace := haside.level_ne (by simp) (by simp)
      rw [List.filter_cons_of_neg (by simpa using hlevel), ih]

/-- **There is one error record for each fault, in order.** -/
theorem errors (h : Chronicle steps faults records) :
    records.filter (fun record => record.level == .error) = faults.map Record.halting := by
  induction h with
  | nil => rfl
  | step c _ ih =>
      by_cases hundefined : Word.Undefined c.currentWord
      · rw [Cpu.log_of_undefined hundefined]
        exact ih
      · rw [Cpu.log_of_defined hundefined]
        exact ih
  | halting e _ ih =>
      rw [List.map_cons, ← ih]
      rfl
  | aside record haside _ ih =>
      have hlevel : record.level ≠ .error := haside.level_ne (by simp) (by simp)
      rw [List.filter_cons_of_neg (by simpa using hlevel), ih]

/-- **A warning stands right behind the record of each undefined word, and nowhere else.** -/
theorem warns (h : Chronicle steps faults records) : WarnsAtUndefined records := by
  induction h with
  | nil => exact .nil
  | step c _ ih =>
      by_cases hundefined : Word.Undefined c.currentWord
      · rw [Cpu.log_of_undefined hundefined]
        exact ih.cons_ignored hundefined
      · rw [Cpu.log_of_defined hundefined]
        refine ih.cons (by simp [Cpu.traced, Record.level]) ?_
        intro pc word heq
        cases heq
        exact hundefined
  | halting e _ ih =>
      refine ih.cons (by simp [Record.level]) ?_
      rintro pc word heq
      cases heq
  | aside record haside _ ih =>
      refine ih.cons (haside.level_ne (by simp) (by simp)) ?_
      rintro pc word rfl
      have hlevel : (Record.executing pc word (.decode word)).level ≠ .trace :=
        haside.level_ne (by simp) (by simp)
      exact absurd rfl hlevel

end Chronicle

theorem Level.rank_le_trace (level : Level) : level.rank ≤ Level.trace.rank := by
  cases level <;> decide

/-- With the finest threshold the log shows everything. -/
theorem logLines_trace (records : List Record) :
    logLines (some .trace) records = records.map Record.line := by
  have hshown : ∀ record ∈ records, record.shown (some .trace) = true := by
    intro record _
    exact decide_eq_true record.level.rank_le_trace
  rw [logLines, List.filter_eq_self.2 hshown]

/-! ### Histories of a processor -/

namespace Cpu

/-- What is noted when things are done with a processor in a row. -/
def logsOf (c : Cpu) : List Handling → List Record
  | [] => []
  | handling :: handlings => c.logOf handling ++ (c.handle handling).logsOf handlings

theorem chronicle_logOf (c : Cpu) (handling : Handling) :
    Chronicle (c.stepOf handling) [] (c.logOf handling) := by
  cases handling with
  | step => exact .of_step c
  | reset | load | loadFrom | takeDrawPending | setRegisters | setTimers | setKeypad => exact .nil

/-- A processor leaves a chronicle of its steps. -/
theorem chronicle_logsOf (handlings : List Handling) (c : Cpu) :
    Chronicle (c.stepsOf handlings) [] (c.logsOf handlings) := by
  induction handlings generalizing c with
  | nil => exact .nil
  | cons handling handlings ih => exact (c.chronicle_logOf handling).append (ih _)

end Cpu

/-! ### Transitions into the halted state -/

/-- The word at which a machine is halted, if it was not halted before. -/
def RunState.haltsAt (before after : RunState) : List UInt16 :=
  match before, after with
  | .halted _, _ => []
  | _, .halted word => [word]
  | _, _ => []

namespace RunState

variable {before before' after : RunState}

theorem haltsAt_eq_nil (h : ∀ word, before ≠ .halted word → after ≠ .halted word) :
    before.haltsAt after = [] := by
  cases before with
  | halted => rfl
  | stopped | running | waitingForKey =>
      cases after with
      | halted word => exact absurd rfl (h word (by simp))
      | stopped | running | waitingForKey => rfl

theorem haltsAt_halted {word : UInt16} (h : ∀ word, before ≠ .halted word) :
    before.haltsAt (.halted word) = [word] := by
  cases before with
  | halted word' => exact absurd rfl (h word')
  | stopped | running | waitingForKey => rfl

/-- Where a machine was that was not halted does not matter. -/
theorem haltsAt_congr (h : ∀ word, before ≠ .halted word) (h' : ∀ word, before' ≠ .halted word) :
    before.haltsAt after = before'.haltsAt after := by
  cases after with
  | halted word => rw [haltsAt_halted h, haltsAt_halted h']
  | stopped | running | waitingForKey =>
      rw [haltsAt_eq_nil (by simp), haltsAt_eq_nil (by simp)]

end RunState

/-! ### What is added to the log -/

namespace Machine

variable {δ σ κ : Type}

theorem records_of_journal {m m' : Machine δ σ} {events : List Event}
    (h : m'.journal.toList = m.journal.toList ++ events) :
    m'.records = m.records ++ events.filterMap Event.record? := by
  rw [records, h, List.filterMap_append]
  rfl

@[simp] theorem records_note (m : Machine δ σ) (record : Record) :
    (m.note record).records = m.records ++ [record] := by
  simp [records, note, Event.record?]

@[simp] theorem records_noteAll (m : Machine δ σ) (new : List Record) :
    (m.noteAll new).records = m.records ++ new := by
  have hjournal : (m.noteAll new).journal.toList = m.journal.toList ++ new.map Event.noted := by
    simp [noteAll]
  rw [records_of_journal hjournal, List.filterMap_map]
  simp [Function.comp_def, Event.record?]

/-- Requests to devices are no records. -/
theorem records_displayEvents (m : Machine δ σ) (call : DeviceCall) (succeeded : Bool) :
    (m.displayEvents call succeeded).filterMap Event.record? = [] := by
  unfold displayEvents
  split
  · rfl
  · rfl

/-- The log of `m'` is that of `m` and then a chronicle of these steps and faults. -/
def Tells (m m' : Machine δ σ) (steps : List Cpu) (faults : List Error) : Prop :=
  ∃ new, m'.records = m.records ++ new ∧ Chronicle steps faults new

namespace Tells

variable {m m₁ m₂ : Machine δ σ} {steps steps' : List Cpu} {faults faults' : List Error}

theorem of_eq (h : m₁.journal = m.journal) : Tells m m₁ [] [] :=
  ⟨[], by rw [records, records, h, List.append_nil], .nil⟩

theorem trans (h : Tells m m₁ steps faults) (h' : Tells m₁ m₂ steps' faults') :
    Tells m m₂ (steps ++ steps') (faults ++ faults') := by
  obtain ⟨new, hnew, hchronicle⟩ := h
  obtain ⟨new', hnew', hchronicle'⟩ := h'
  refine ⟨new ++ new', ?_, hchronicle.append hchronicle'⟩
  rw [hnew', hnew, List.append_assoc]

/-- What changes no record changes nothing. -/
theorem congr (h : Tells m m₁ steps faults) (hrecords : m₂.records = m₁.records) :
    Tells m m₂ steps faults := by
  obtain ⟨new, hnew, hchronicle⟩ := h
  exact ⟨new, hrecords.trans hnew, hchronicle⟩

/-- A note that goes with a change that is none to the journal. -/
theorem note (h : m₁.journal = m.journal) {record : Record} (haside : record.IsAside) :
    Tells m (m₁.note record) [] [] := by
  refine ⟨[record], ?_, .aside record haside .nil⟩
  rw [records_note, records, records, h]

end Tells

/-! ### Instructions -/

theorem executed_tells (m : Machine δ σ) : Tells m m.executed [m.cpu] [] :=
  ⟨m.cpu.step.log, records_noteAll _ _, .of_step m.cpu⟩

section Instructions

variable [DisplayDevice δ]

/-- **What an instruction adds to the log**: what its step notes, and a fault if it fails. -/
theorem cycle_tells (m : Machine δ σ) :
    (∀ e, m.cpu.step.outcome = .error e → Tells m m.cycle.2 [m.cpu] [e]) ∧
      ∀ flow, m.cpu.step.outcome = .ok flow → Tells m m.cycle.2 [m.cpu] [] := by
  have hexecuted := m.executed_tells
  constructor
  · intro e hout
    rw [cycle_of_error hout]
    exact hexecuted.trans ⟨[.halting e], records_note _ _, .halting e .nil⟩
  · intro flow hout
    cases flow with
    | next =>
        rw [cycle_of_next hout]
        exact hexecuted
    | cleared =>
        rw [cycle_of_cleared hout]
        refine hexecuted.congr ?_
        rw [records_of_journal m.executed.clearDisplay_asked.journal, records_displayEvents,
          List.append_nil]
    | awaitKey register =>
        rw [cycle_of_awaitKey hout]
        exact hexecuted.trans (.note rfl (.inr rfl))

/-- An instruction of a running machine halts it if it fails, and the log tells of the fault. -/
theorem cycle_tells_halt (n : Nat) {m : Machine δ σ} (hbefore : ∀ word, m.state ≠ .halted word) :
    ∃ faults, Tells m m.cycle.2 [m.cpu] faults ∧
      List.Forall₂ (m.cpu.FaultsWithin (n + 1)) faults (m.state.haltsAt m.cycle.2.state) := by
  obtain ⟨herror, hok⟩ := m.cycle_tells
  rcases hout : m.cpu.step.outcome with e | flow
  · obtain ⟨-, hstate, -⟩ := cycle_state_of_error hout
    rw [hstate, RunState.haltsAt_halted hbefore]
    exact ⟨[e], herror e hout, .cons (.now hout) .nil⟩
  · rw [RunState.haltsAt_eq_nil fun _ => cycle_state_of_ok hout]
    exact ⟨[], hok flow hout, .nil⟩

/-- **What a batch adds to the log**: what its steps note, and a fault if it halts the machine. -/
theorem batch_tells (n : Nat) (m : Machine δ σ) :
    ∃ faults, Tells m (m.batch n).2 (m.course n) faults ∧
      List.Forall₂ (m.cpu.FaultsWithin n) faults (m.state.haltsAt (m.batch n).2.state) := by
  induction n generalizing m with
  | zero =>
      rw [batch, RunState.haltsAt_eq_nil fun _ h => h]
      exact ⟨[], .of_eq rfl, .nil⟩
  | succ n ih =>
      obtain ⟨-, hcourse, hbatch⟩ | ⟨e, m₁, hrun, hcycle, hcourse, hbatch⟩ |
        ⟨m₁, hrun, hcycle, hcourse, hbatch⟩ := m.course_cases n
      · -- the machine does not run
        rw [hcourse, hbatch, RunState.haltsAt_eq_nil fun _ h => h]
        exact ⟨[], .of_eq rfl, .nil⟩
      · -- its first instruction is the last one, as it faults or the display does
        have hbefore : ∀ word, m.state ≠ .halted word := by simp [isRunning_iff.1 hrun]
        have hlast := cycle_tells_halt n hbefore
        rw [hcycle] at hlast
        rw [hcourse, hbatch]
        exact hlast
      · -- the batch goes on with a machine that is not halted either
        have hbefore : ∀ word, m.state ≠ .halted word := by simp [isRunning_iff.1 hrun]
        obtain ⟨flow, hout⟩ := proceeds_of_cycle (congrArg Prod.fst hcycle)
        have hfirst := m.cycle_tells.2 flow hout
        have hafter := fun word => cycle_state_of_ok hout (hbefore word)
        have hstep := m.cpu_cycle
        rw [hcycle] at hfirst hafter hstep
        obtain ⟨faults, hrest, hfaults⟩ := ih m₁
        rw [hcourse, hbatch, RunState.haltsAt_congr hbefore hafter]
        refine ⟨faults, hfirst.trans hrest, hfaults.imp ?_⟩
        intro e word hfault
        rw [hstep] at hfault
        exact hfault.later hout

/-! ### Frames -/

variable [SoundDevice σ]

/-- What follows the instructions of a frame adds nothing to the log. -/
theorem records_tick (m : Machine δ σ) :
    m.tick.2.records = (m.batch m.config.cyclesPerFrame).2.records := by
  refine tick_ends (P := fun m' => m'.records = (m.batch m.config.cyclesPerFrame).2.records) ?_ ?_
  · rw [records_of_journal (present_journal _), apply_ite (List.filterMap Event.record?),
      records_displayEvents]
    simp
  · intro m' hm'
    rw [records_of_journal m'.finishFrame_journal, records_of_journal m'.decay_journal, hm',
      apply_ite (List.filterMap Event.record?), apply_ite (List.filterMap Event.record?)]
    simp [Event.record?]

/-- **What a frame adds to the log.** -/
theorem tick_tells (m : Machine δ σ) :
    ∃ faults, Tells m m.tick.2 (m.course m.config.cyclesPerFrame) faults ∧
      List.Forall₂ m.FaultsWith faults (m.state.haltsAt m.tick.2.state) := by
  obtain ⟨faults, htells, hfaults⟩ := m.batch_tells m.config.cyclesPerFrame
  rw [← tick_state_eq] at hfaults
  exact ⟨faults, htells.congr m.records_tick, hfaults⟩

end Instructions

/-! ### Actions -/

theorem start_tells (m : Machine δ σ) : Tells m m.start.2 [] [] := by
  unfold start
  split
  · exact .of_eq rfl
  · exact .of_eq rfl
  · exact .of_eq rfl
  · exact .note rfl (.inr rfl)
  · exact .note rfl (.inr rfl)

theorem stop_tells (m : Machine δ σ) : Tells m m.stop [] [] := by
  unfold stop
  split
  · exact .note rfl (.inr rfl)
  · exact .of_eq rfl

theorem setKey_tells (m : Machine δ σ) (key : UInt8) : Tells m (m.setKey key).2 [] [] := by
  unfold setKey
  split
  · exact (Tells.note rfl (.inr rfl)).trans (start_tells _)
  all_goals exact .of_eq rfl

theorem reset_tells (m : Machine δ σ) : Tells m m.reset [] [] := by
  unfold reset
  apply Tells.note
  · rfl
  · exact .inr rfl

end Machine

/-- What an action notes by itself is no reason to worry. -/
def Action.IsQuiet {δ : Type} : Action δ → Prop
  | .note record => record.IsAside
  | _ => True

theorem Action.isQuiet_holdsOfRun {δ : Type} :
    HoldsOfRun fun action : Action δ => action.IsQuiet :=
  ⟨⟨fun _ => trivial, fun _ => trivial, fun _ => .inl rfl, trivial⟩, trivial, trivial⟩

namespace Machine

variable {δ σ κ : Type}

/-- The transition into the halted state between two machines, if there is one: the machine before
and the word at which it is halted then. -/
def haltsBetween (m m' : Machine δ σ) : List (Machine δ σ × UInt16) :=
  (m.state.haltsAt m'.state).map fun word => (m, word)

/-- The log of `m'` is that of `m` and then a chronicle of these steps, and of one fault for each of
these halts, of which it is the reason. -/
def Recounts (m m' : Machine δ σ) (steps : List Cpu) (halts : List (Machine δ σ × UInt16)) :
    Prop :=
  ∃ faults, Tells m m' steps faults ∧
    List.Forall₂ (fun e halt => halt.1.FaultsWith e halt.2) faults halts

theorem Recounts.refl (m : Machine δ σ) : Recounts m m [] [] :=
  ⟨[], .of_eq rfl, .nil⟩

theorem Recounts.trans {m m₁ m₂ : Machine δ σ} {steps steps' : List Cpu}
    {halts halts' : List (Machine δ σ × UInt16)} (h : Recounts m m₁ steps halts)
    (h' : Recounts m₁ m₂ steps' halts') : Recounts m m₂ (steps ++ steps') (halts ++ halts') := by
  obtain ⟨faults, htells, hfaults⟩ := h
  obtain ⟨faults', htells', hfaults'⟩ := h'
  exact ⟨faults ++ faults', htells.trans htells', List.rel_append hfaults hfaults'⟩

/-- What does not halt the machine. -/
theorem Tells.recounts {m m' : Machine δ σ} {steps : List Cpu} (h : Tells m m' steps [])
    (hstate : ∀ word, m.state ≠ .halted word → m'.state ≠ .halted word) :
    Recounts m m' steps (m.haltsBetween m') := by
  rw [haltsBetween, RunState.haltsAt_eq_nil hstate]
  exact ⟨[], h, .nil⟩

variable [DisplayDevice δ] [SoundDevice σ]

/-- Between frames no instruction is executed. -/
theorem act_tells {action : Action δ} (htick : action ≠ .tick) (hquiet : action.IsQuiet)
    (m : Machine δ σ) : Tells m (m.act action) (m.stepsOfAction action) [] := by
  cases action with
  | tick => exact absurd rfl htick
  | start => exact m.start_tells
  | stop => exact m.stop_tells
  | reset => exact m.reset_tells
  | setKey key => exact m.setKey_tells key
  | note record => exact .note rfl hquiet
  | attach | load | loadFrom | unsetKey | alter => exact .of_eq rfl

/-- **What an action adds to the log.** -/
theorem recounts_act {action : Action δ} (hquiet : action.IsQuiet) (m : Machine δ σ) :
    Recounts m (m.act action) (m.stepsOfAction action) (m.haltsBetween (m.act action)) := by
  by_cases htick : action = .tick
  · obtain ⟨faults, htells, hfaults⟩ := m.tick_tells
    subst htick
    refine ⟨faults, htells, ?_⟩
    rw [haltsBetween, List.forall₂_map_right_iff]
    exact hfaults
  · exact (act_tells htick hquiet m).recounts fun word => act_ne_halted htick

/-- The transitions into the halted state in a history of actions. -/
def haltsOfActions (m : Machine δ σ) (actions : List (Action δ)) : List (Machine δ σ × UInt16) :=
  collect (fun m action => m.haltsBetween (m.act action)) m actions

/-- What a history of actions adds to the log. -/
theorem recounts_actAll {actions : List (Action δ)} (hquiet : ∀ action ∈ actions, action.IsQuiet)
    (m : Machine δ σ) :
    Recounts m (m.actAll actions) (collect stepsOfAction m actions) (m.haltsOfActions actions) := by
  induction actions generalizing m with
  | nil => exact .refl m
  | cons action actions ih =>
      obtain ⟨hfirst, hrest⟩ := List.forall_mem_cons.1 hquiet
      exact (recounts_act hfirst m).trans (ih hrest _)

/-! ### Histories of a machine -/

variable [FrameClock κ]

/-- An operation notes no reason to worry by itself, if its keys come from a script. -/
theorem isQuiet_of_mem_actions (operation : Operation δ κ ScriptedKeys) (m : Machine δ σ) :
    ∀ action ∈ (Intervention.operation operation).actions m, action.IsQuiet := by
  intro action hmem
  cases operation with
  | run limit clock keys =>
      refine Console.forall_mem_actions Action.isQuiet_holdsOfRun ?_ action hmem
      intro keys record hrecord
      rw [keys.poll_spec.2.1] at hrecord
      exact absurd hrecord List.not_mem_nil
  | attach | start | stop | reset | load | loadFrom | setKey | unsetKey | tick =>
      rw [List.mem_singleton.1 hmem]
      trivial

/-- The transitions into the halted state in a deed. -/
def haltsOfDeed (m : Machine δ σ) : Deed δ κ ScriptedKeys → List (Machine δ σ × UInt16)
  | .operation operation => m.haltsOfActions ((Intervention.operation operation).actions m)
  | .handling handling => m.haltsBetween (m.undergo (.handling handling : Deed δ κ ScriptedKeys))

/-- The transitions into the halted state in deeds in a row. -/
def haltsOf (m : Machine δ σ) : List (Deed δ κ ScriptedKeys) → List (Machine δ σ × UInt16)
  | [] => []
  | deed :: deeds => m.haltsOfDeed deed ++ (m.undergo deed).haltsOf deeds

theorem recounts_undergo (m : Machine δ σ) (deed : Deed δ κ ScriptedKeys) :
    Recounts m (m.undergo deed) (m.stepsOfDeed deed) (m.haltsOfDeed deed) := by
  cases deed with
  | operation operation =>
      have hactions := recounts_actAll (isQuiet_of_mem_actions operation m) m
      rw [← intervene_eq_actAll] at hactions
      exact hactions
  | handling handling =>
      have hlog : Tells m (m.undergo (.handling handling : Deed δ κ ScriptedKeys))
          (m.cpu.stepOf handling) [] :=
        ⟨m.cpu.logOf handling, records_noteAll _ _, m.cpu.chronicle_logOf handling⟩
      exact hlog.recounts fun _ h => h

/-- **What a history adds to the log.** -/
theorem recounts_undergoAll (deeds : List (Deed δ κ ScriptedKeys)) (m : Machine δ σ) :
    Recounts m (m.undergoAll deeds) (m.stepsOf deeds) (m.haltsOf deeds) := by
  induction deeds generalizing m with
  | nil => exact .refl m
  | cons deed deeds ih => exact (m.recounts_undergo deed).trans (ih _)

/-- **The log is a faithful trace.**  Take a processor or a machine, in whatever state, and whatever
is done with it: for a machine its operations, frames and runs with scripted keys among them, with
devices that may fail at any time; and its processor may be stepped, reset, loaded and have its
registers, timers and keys overwritten directly.  With the finest threshold the log shows all that was
noted meanwhile.  The records of instructions are, one for each step and in order, those of the
instructions that were executed, with the program counter before the step, the word and the
instruction, whether it succeeds or not.  A warning stands right behind the record of each undefined
word, and nowhere else.  A processor alone notes no error; and the errors of a machine are, one for
each transition into the halted state and in order, the faults that halted it. -/
theorem log_faithful :
    (∀ (c : Cpu) (handlings : List Handling),
      let log := c.logsOf handlings
      logLines (some .trace) log = log.map Record.line ∧
        log.filter (fun record => record.level == .trace) =
          (c.stepsOf handlings).map Cpu.traced ∧
        WarnsAtUndefined log ∧
        log.filter (fun record => record.level == .error) = []) ∧
    ∀ (m : Machine δ σ) (deeds : List (Deed δ κ ScriptedKeys)),
      ∃ log, (m.undergoAll deeds).records = m.records ++ log ∧
        logLines (some .trace) log = log.map Record.line ∧
        log.filter (fun record => record.level == .trace) = (m.stepsOf deeds).map Cpu.traced ∧
        WarnsAtUndefined log ∧
        List.Forall₂ (fun record halt => ∃ e, record = .halting e ∧ halt.1.FaultsWith e halt.2)
          (log.filter fun record => record.level == .error) (m.haltsOf deeds) := by
  constructor
  · intro c handlings
    have hchronicle := c.chronicle_logsOf handlings
    exact ⟨logLines_trace _, hchronicle.traces, hchronicle.warns, hchronicle.errors⟩
  · intro m deeds
    obtain ⟨faults, ⟨log, hlog, hchronicle⟩, hfaults⟩ := m.recounts_undergoAll deeds
    refine ⟨log, hlog, logLines_trace log, hchronicle.traces, hchronicle.warns, ?_⟩
    rw [hchronicle.errors, List.forall₂_map_left_iff]
    refine hfaults.imp ?_
    intro e halt hfault
    exact ⟨e, rfl, hfault⟩

end Machine

/-- The last word of the address space, found in empty memory: the program counter wraps in the step,
and the log tells where it was before. -/
example :
    let c : Cpu := { Cpu.new 0 with registers := { Registers.new with pc := 0xfffe } }
    c.step.cpu.registers.pc = 0 ∧
      logLines (some .trace) c.step.log =
        ["TRACE 0xfffe: 0000 DW 0x0000", "WARN ignoring undefined opcode 0x0000"] := by
  decide +kernel

end Chip8
