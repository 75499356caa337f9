/-
**What a frame asks of its devices, and when it is counted.**

The instructions of a frame ask the display to be cleared, at most.  Then the picture is asked for,
and a ring, and in the end the sound device is told that the frame is over.  That last request is
made after the frame has been counted.  So of all that can go wrong in a frame, it alone leaves a
frame that is counted.

Main definitions:

* `Chip8.Event.ofInstruction` — what instructions put into the journal;
* `Chip8.Machine.FailsToUpdate` — the sound device fails when it is told that the frame is over.

Main results:

* `Chip8.Machine.cycle_journal`, `Chip8.Machine.batch_journal` — an instruction, and a batch;
* `Chip8.Machine.frame_of_ok` — a frame that succeeds is counted;
* `Chip8.Machine.frame_of_error` — **a frame that fails is counted exactly if telling the sound
  device fails**.
-/
import Chip8.Proofs.Journal

set_option relaxedAutoImplicit false
set_option autoImplicit false

namespace Chip8

/-- What instructions put into the journal: records, and requests to clear the display. -/
def Event.ofInstruction : Event → Prop
  | .noted _ | .called .clear _ => True
  | .called _ _ => False

namespace Machine

variable {δ σ : Type}

/-! ### What instructions ask for -/

section Instructions

variable [DisplayDevice δ]

/-- An instruction asks for nothing but to clear the display. -/
theorem cycle_journal (m : Machine δ σ) :
    ∃ events, m.cycle.2.journal.toList = m.journal.toList ++ events ∧
      ∀ event ∈ events, event.ofInstruction := by
  have hexecuted : m.executed.journal.toList =
      m.journal.toList ++ m.cpu.step.log.map Event.noted := by
    simp [executed, noteAll]
  have hnoted : ∀ event ∈ m.cpu.step.log.map Event.noted, event.ofInstruction := by
    intro event hmem
    obtain ⟨record, -, rfl⟩ := List.mem_map.1 hmem
    trivial
  rcases hout : m.cpu.step.outcome with e | flow
  · rw [cycle_of_error hout]
    refine ⟨m.cpu.step.log.map .noted ++ [.noted (.halting e)], by simp [note, hexecuted], ?_⟩
    exact List.forall_mem_append.2 ⟨hnoted, by simp [Event.ofInstruction]⟩
  · cases flow with
    | next =>
        rw [cycle_of_next hout]
        exact ⟨_, hexecuted, hnoted⟩
    | cleared =>
        rw [cycle_of_cleared hout]
        refine ⟨_, by rw [m.executed.clearDisplay_asked.journal, hexecuted, List.append_assoc], ?_⟩
        refine List.forall_mem_append.2 ⟨hnoted, ?_⟩
        cases hd : m.executed.display <;> simp [displayEvents, hd, Event.ofInstruction]
    | awaitKey register =>
        rw [cycle_of_awaitKey hout]
        refine ⟨m.cpu.step.log.map .noted ++ [.noted (.waiting register)],
          by simp [note, hexecuted], ?_⟩
        exact List.forall_mem_append.2 ⟨hnoted, by simp [Event.ofInstruction]⟩

/-- The instructions of a frame ask for nothing but to clear the display. -/
theorem batch_journal (n : Nat) (m : Machine δ σ) :
    ∃ events, (m.batch n).2.journal.toList = m.journal.toList ++ events ∧
      ∀ event ∈ events, event.ofInstruction := by
  refine batch_keeps (P := fun m' => ∃ events,
    m'.journal.toList = m.journal.toList ++ events ∧ ∀ event ∈ events, event.ofInstruction) ?_ n
    ⟨[], (List.append_nil _).symm, by simp⟩
  rintro m' - ⟨before, hjournal, hbefore⟩
  obtain ⟨events, hnext, hevents⟩ := m'.cycle_journal
  exact ⟨before ++ events, by rw [hnext, hjournal, List.append_assoc],
    List.forall_mem_append.2 ⟨hbefore, hevents⟩⟩

/-- Up to its picture, a frame does not tell the sound device that it is over. -/
theorem presented_journal (m : Machine δ σ) :
    ∃ events, m.presented.journal.toList = m.journal.toList ++ events ∧
      ∀ done, .called .update done ∉ events := by
  obtain ⟨events, hbatch, hevents⟩ := m.batch_journal m.config.cyclesPerFrame
  refine ⟨_, by rw [presented, present_journal, hbatch, List.append_assoc], ?_⟩
  intro done hmem
  rcases List.mem_append.1 hmem with hinstruction | hpicture
  · exact hevents _ hinstruction
  · unfold displayEvents at hpicture
    generalize (m.batch m.config.cyclesPerFrame).2.display = display at hpicture
    split at hpicture
    · cases display <;> simp at hpicture
    · simp at hpicture

end Instructions

/-! ### When a frame is counted -/

section Frame

variable [DisplayDevice δ] [SoundDevice σ]

/-- In the frame the sound device is told that the frame is over, and fails. -/
def FailsToUpdate (m : Machine δ σ) : Prop :=
  .called .update false ∈ m.newEvents m.tick.2

instance (m : Machine δ σ) : Decidable m.FailsToUpdate :=
  inferInstanceAs (Decidable (_ ∈ _))

/-- A frame that succeeds is counted. -/
theorem frame_of_ok {m : Machine δ σ} (hok : m.tick.1 = .ok ()) :
    m.tick.2.frame = m.frame + 1 := by
  obtain ⟨_, hpresents⟩ := m.presented_spec
  have htick := tick_of_getsThrough (getsThrough_of_ok hok)
  obtain ⟨hframe, -, hrang⟩ := m.presented.finishFrame_frame
  rw [htick] at hok ⊢
  rw [hframe, if_pos (hrang hok), hpresents.frame]

/-- **A frame that fails is counted exactly if telling the sound device fails.** -/
theorem frame_of_error {m : Machine δ σ} {e : Error} (herror : m.tick.1 = .error e) :
    m.tick.2.frame = m.frame + (if m.FailsToUpdate then 1 else 0) := by
  obtain ⟨_, hpresents⟩ := m.presented_spec
  obtain ⟨events, hpresented, hnone⟩ := m.presented_journal
  by_cases hthrough : m.GetsThrough
  · have htick := tick_of_getsThrough hthrough
    obtain ⟨hframe, -, -⟩ := m.presented.finishFrame_frame
    have hjournal := m.presented.finishFrame_journal
    rw [decay_journal, hpresented, List.append_assoc, List.append_assoc] at hjournal
    rw [← htick, herror] at hjournal
    rw [← htick, hpresents.frame] at hframe
    have hnew := newEvents_eq hjournal
    cases hrang : succeeded m.presented.decay.1 with
    | true =>
        have hfails : m.FailsToUpdate := by
          rw [FailsToUpdate, hnew, hrang]
          simp [succeeded]
        rw [if_pos hfails, hframe, hrang, if_pos rfl]
    | false =>
        -- the ring failed, so the sound device was told nothing
        have hnot : ¬ m.FailsToUpdate := by
          rw [FailsToUpdate, hnew, hrang, List.mem_append, not_or]
          refine ⟨hnone false, ?_⟩
          split <;> simp
        rw [if_neg hnot, hframe, hrang, if_neg Bool.false_ne_true, Nat.add_zero]
  · have hnot : ¬ m.FailsToUpdate := by
      rw [FailsToUpdate, tick_of_not_getsThrough hthrough, newEvents_eq hpresented]
      exact hnone false
    rw [if_neg hnot, tick_of_not_getsThrough hthrough, hpresents.frame, Nat.add_zero]

end Frame

end Machine

end Chip8
