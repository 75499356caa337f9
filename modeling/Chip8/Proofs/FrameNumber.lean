/-
**The number of a frame.**

The timers step in the frames whose number is a multiple of the divider, and the number of a frame
is how many frames were completed before it.  A frame that fails before the timers' turn neither
steps them nor is counted, and a sound device that fails to be told of the frame fails after both.
But a ring that fails comes between the two: the timers have stepped, and the frame is not counted.
Then the next frame has the same number and steps them again.

This is the only way in which the timers can step twice at one number.  The count of frames never
goes down, short of a reset, and it stands still over some frames exactly if each of them fails
before its turn to be counted.

Main definitions:

* `Chip8.Action.isTick`, `Chip8.Machine.EveryFrame` — the actions that are frames, and that every
  frame among some actions is of some kind;
* `Chip8.Machine.StepsTimers`, `Chip8.Machine.FailsToRing` — the timers step in a frame, and the
  sound device fails to ring in it.

Main results:

* `Chip8.Machine.tick_timers`, `Chip8.Machine.tick_frame` — when a frame steps the timers, and when
  it is counted;
* `Chip8.Machine.actAll_frame_le`, `Chip8.Machine.frame_eq_iff` — the count never goes down, and
  when it stands still;
* `Chip8.Machine.stepsTimers_again` — **the timers step twice at one number only if every ring in
  between fails**, and else a divider apart.
-/
import Chip8.Device.Display
import Chip8.Device.Sound
import Chip8.Proofs.Journal
import Mathlib.Control.Monad.Basic

set_option relaxedAutoImplicit false
set_option autoImplicit false

namespace Chip8

/-- Whether an action is a frame. -/
def Action.isTick {δ : Type} : Action δ → Bool
  | .tick => true
  | _ => false

theorem Action.isTick_iff {δ : Type} {action : Action δ} :
    action.isTick = true ↔ action = .tick := by
  cases action with
  | tick => exact iff_of_true rfl rfl
  | _ => exact iff_of_false Bool.false_ne_true (by simp)

namespace Machine

variable {δ σ : Type}

/-! ### What is due, and what fails -/

theorem timersDue_iff (m : Machine δ σ) :
    m.timersDue = true ↔ max m.config.timerDivider 1 ∣ m.frame := by
  rw [timersDue, beq_iff_eq, Nat.dvd_iff_mod_eq_zero]

theorem presented_timersDue [DisplayDevice δ] (m : Machine δ σ) :
    m.presented.timersDue = m.timersDue := by
  obtain ⟨_, hpresents⟩ := m.presented_spec
  rw [timersDue, timersDue, hpresents.config, hpresents.frame]

/-- Stepping the timers fails exactly if a ring that it asks for does. -/
theorem decay_fails_iff [SoundDevice σ] (m : Machine δ σ) :
    false ∈ (if m.timersDue && m.cpu.timers.sound == 1 then [succeeded m.decay.1] else []) ↔
      succeeded m.decay.1 = false := by
  by_cases hrings : (m.timersDue && m.cpu.timers.sound == 1) = true
  · rw [if_pos hrings, List.mem_singleton, eq_comm]
  · have hok : m.decay.1 = .ok () := by
      unfold decay
      split
      · rename_i hdue
        simp only [hdue, Bool.true_and] at hrings
        simp [Cpu.tickTimers, Timers.tick, hrings]
      · rfl
    rw [if_neg hrings, hok]
    simp [succeeded]

variable [DisplayDevice δ] [SoundDevice σ]

/-! ### The frames among some actions -/

/-- Every frame among the actions is of this kind, as the machine is when it comes to it. -/
def EveryFrame (Q : Machine δ σ → Prop) (m : Machine δ σ) (actions : List (Action δ)) : Prop :=
  ∀ before after, actions = before ++ .tick :: after → Q (m.actAll before)

namespace EveryFrame

variable {Q : Machine δ σ → Prop} {m : Machine δ σ} {action : Action δ} {actions : List (Action δ)}

theorem nil : EveryFrame Q m [] := by
  intro before after h
  simp at h

/-- The first action, if it is a frame, and the frames after it. -/
theorem cons_iff : EveryFrame Q m (action :: actions) ↔
    (action.isTick = true → Q m) ∧ EveryFrame Q (m.act action) actions := by
  constructor
  · intro h
    refine ⟨fun htick => ?_, fun before after hactions => ?_⟩
    · obtain rfl := Action.isTick_iff.1 htick
      exact h [] actions rfl
    · exact h (action :: before) after (by rw [hactions, List.cons_append])
  · rintro ⟨hfirst, hrest⟩ before after hactions
    cases before with
    | nil =>
        obtain ⟨rfl, -⟩ := List.cons.inj hactions
        exact hfirst rfl
    | cons first before =>
        obtain ⟨rfl, hafter⟩ := List.cons.inj hactions
        exact hrest before after hafter

theorem cons_tick : EveryFrame Q m (.tick :: actions) ↔ Q m ∧ EveryFrame Q m.tick.2 actions :=
  cons_iff.trans (and_congr_left' (forall_prop_of_true rfl))

theorem tail (h : EveryFrame Q m (action :: actions)) : EveryFrame Q (m.act action) actions :=
  (cons_iff.1 h).2

/-- The frames up to some point. -/
theorem of_append {before after : List (Action δ)} (h : EveryFrame Q m (before ++ after)) :
    EveryFrame Q m before := by
  intro first rest hbefore
  exact h first (rest ++ after) (by rw [hbefore, List.append_assoc, List.cons_append])

instance decidable [DecidablePred Q] : (m : Machine δ σ) → (actions : List (Action δ)) →
    Decidable (EveryFrame Q m actions)
  | _, [] => .isTrue nil
  | m, action :: actions =>
    have := decidable (m.act action) actions
    decidable_of_iff _ cons_iff.symm

end EveryFrame

/-! ### A frame -/

/-- The timers step in the frame: nothing fails before their turn, and they are due. -/
def StepsTimers (m : Machine δ σ) : Prop :=
  m.GetsThrough ∧ m.timersDue = true

/-- In the frame the sound device is asked to ring, and fails. -/
def FailsToRing (m : Machine δ σ) : Prop :=
  false ∈ rings (m.newEvents m.tick.2)

instance (m : Machine δ σ) : Decidable m.StepsTimers :=
  inferInstanceAs (Decidable ((_ ∧ _) ∧ _))

instance (m : Machine δ σ) : Decidable m.FailsToRing :=
  inferInstanceAs (Decidable (false ∈ _))

/-- **When a frame steps the timers.**  They are the ones that its instructions left. -/
theorem tick_timers (m : Machine δ σ) :
    (m.StepsTimers → m.tick.2.cpu.timers = m.presented.cpu.timers.tick.2) ∧
      (¬ m.StepsTimers → m.tick.2.cpu.timers = m.presented.cpu.timers) := by
  have hfinish := m.presented.finishFrame_spec.1
  rw [presented_timersDue] at hfinish
  constructor
  · rintro ⟨hthrough, hdue⟩
    rw [tick_of_getsThrough hthrough, hfinish, if_pos hdue]
    rfl
  · intro hnot
    by_cases hthrough : m.GetsThrough
    · have hdue : m.timersDue ≠ true := fun hdue => hnot ⟨hthrough, hdue⟩
      rw [tick_of_getsThrough hthrough, hfinish, if_neg hdue]
    · rw [tick_of_not_getsThrough hthrough]

/-- **When a frame is counted**: if nothing fails before its end.  A ring that fails comes before
its end, too. -/
theorem tick_frame (m : Machine δ σ) :
    m.tick.2.config = m.config ∧
      (m.tick.2.frame = m.frame + 1 ∧ m.GetsThrough ∧ ¬ m.FailsToRing ∨
        m.tick.2.frame = m.frame ∧ (m.GetsThrough → m.FailsToRing)) := by
  obtain ⟨_, hpresents⟩ := m.presented_spec
  by_cases hthrough : m.GetsThrough
  · obtain ⟨hframe, hconfig, -⟩ := m.presented.finishFrame_frame
    have hadds := hpresents.adds.trans m.presented.finishFrame_adds
    rw [← tick_of_getsThrough hthrough] at hframe hconfig hadds
    have hfails : m.FailsToRing ↔ succeeded m.presented.decay.1 = false := by
      rw [FailsToRing, hadds.rings, List.nil_append, decay_fails_iff]
    rw [hpresents.frame] at hframe
    refine ⟨hconfig.trans hpresents.config, ?_⟩
    cases hresult : succeeded m.presented.decay.1 with
    | true =>
        rw [hresult, if_pos rfl] at hframe
        exact .inl ⟨hframe, hthrough, by simp [hfails, hresult]⟩
    | false =>
        rw [hresult, if_neg Bool.false_ne_true] at hframe
        exact .inr ⟨hframe, fun _ => hfails.2 hresult⟩
  · rw [tick_of_not_getsThrough hthrough]
    exact ⟨hpresents.config, .inr ⟨hpresents.frame, fun h => absurd h hthrough⟩⟩

/-! ### The count of frames -/

/-- Between frames nothing is counted, unless the machine is reset. -/
theorem act_frame {action : Action δ} (htick : action ≠ .tick) (hreset : action ≠ .reset)
    (m : Machine δ σ) : (m.act action).frame = m.frame ∧ (m.act action).config = m.config := by
  cases action with
  | tick => exact absurd rfl htick
  | reset => exact absurd rfl hreset
  | start => exact ⟨(Idle.start m).frame, (Idle.start m).config⟩
  | stop => exact ⟨(Idle.stop m).frame, (Idle.stop m).config⟩
  | setKey key => exact ⟨(Idle.setKey m key).frame, (Idle.setKey m key).config⟩
  | attach | load | loadFrom | unsetKey | note | alter => exact ⟨rfl, rfl⟩

theorem act_frame_le {action : Action δ} (hreset : action ≠ .reset) (m : Machine δ σ) :
    m.frame ≤ (m.act action).frame ∧ (m.act action).config = m.config := by
  by_cases htick : action = .tick
  · subst htick
    obtain ⟨hconfig, ⟨hframe, -⟩ | ⟨hframe, -⟩⟩ := m.tick_frame
    · exact ⟨Nat.le.intro hframe.symm, hconfig⟩
    · exact ⟨Nat.le_of_eq hframe.symm, hconfig⟩
  · obtain ⟨hframe, hconfig⟩ := act_frame htick hreset m
    exact ⟨Nat.le_of_eq hframe.symm, hconfig⟩

/-- The count of frames only grows. -/
theorem actAll_frame_le {m : Machine δ σ} {actions : List (Action δ)}
    (hreset : ∀ action ∈ actions, action ≠ .reset) :
    m.frame ≤ (m.actAll actions).frame ∧ (m.actAll actions).config = m.config := by
  refine actAll_keeps (P := fun m' => m.frame ≤ m'.frame ∧ m'.config = m.config) ?_
    ⟨Nat.le_refl _, rfl⟩
  rintro action hmem m' ⟨hframe, hconfig⟩
  obtain ⟨hframe', hconfig'⟩ := act_frame_le (hreset action hmem) m'
  exact ⟨Nat.le_trans hframe hframe', hconfig'.trans hconfig⟩

/-- **When the count does not move**: every frame fails before its end. -/
theorem frame_eq_iff {m : Machine δ σ} {actions : List (Action δ)}
    (hreset : ∀ action ∈ actions, action ≠ .reset) :
    (m.actAll actions).frame = m.frame ↔
      EveryFrame (fun now => now.GetsThrough → now.FailsToRing) m actions := by
  induction actions generalizing m with
  | nil => exact ⟨fun _ => .nil, fun _ => rfl⟩
  | cons action actions ih =>
      obtain ⟨hfirst, hrest⟩ := List.forall_mem_cons.1 hreset
      rw [actAll_cons]
      by_cases htick : action = .tick
      · subst htick
        rw [EveryFrame.cons_tick]
        have hle := (actAll_frame_le (m := m.act .tick) hrest).1
        obtain ⟨-, ⟨hframe, hthrough, hrings⟩ | ⟨hframe, hfails⟩⟩ := m.tick_frame
        · -- a frame that is counted moves the count for good
          constructor
          · intro hsame
            rw [hsame, act, hframe] at hle
            omega
          · rintro ⟨hfails, -⟩
            exact absurd (hfails hthrough) hrings
        · rw [← hframe]
          exact (ih hrest).trans (and_iff_right hfails).symm
      · rw [EveryFrame.cons_iff, Action.isTick_iff, forall_prop_of_false htick, true_and,
          ← (act_frame htick hfirst m).1]
        exact ih hrest

/-- **The timers step twice at one number only if every ring in between fails.**  Take a frame that
steps the timers, and whatever follows it short of a reset.  The count of frames is still the same
if and only if this frame, and every later one that gets as far as the timers, failed to ring.  And
if a later frame steps the timers, then its number is the same, or it is at least a divider higher.
-/
theorem stepsTimers_again {m : Machine δ σ} (hsteps : m.StepsTimers) {between : List (Action δ)}
    (hreset : ∀ action ∈ between, action ≠ .reset) :
    let later := m.tick.2.actAll between
    (later.frame = m.frame ↔ m.FailsToRing ∧
        EveryFrame (fun now => now.GetsThrough → now.FailsToRing) m.tick.2 between) ∧
      (later.StepsTimers →
        later.frame = m.frame ∨ m.frame + max m.config.timerDivider 1 ≤ later.frame) := by
  have hreset' : ∀ action ∈ Action.tick :: between, action ≠ .reset :=
    List.forall_mem_cons.2 ⟨by simp, hreset⟩
  have hsame := frame_eq_iff (m := m) hreset'
  rw [EveryFrame.cons_tick, forall_prop_of_true hsteps.1] at hsame
  obtain ⟨hle, hconfig⟩ := actAll_frame_le (m := m) hreset'
  refine ⟨hsame, fun hagain => ?_⟩
  -- both numbers are multiples of the divider
  have hdue := m.timersDue_iff.1 hsteps.2
  have hdue' := (m.actAll (.tick :: between)).timersDue_iff.1 hagain.2
  rw [hconfig] at hdue'
  rcases Nat.eq_or_lt_of_le hle with heq | hlt
  · exact .inl heq.symm
  · have hgap := Nat.le_of_dvd (Nat.sub_pos_of_lt hlt) (Nat.dvd_sub hdue' hdue)
    refine .inr ?_
    change _ ≤ (m.actAll (.tick :: between)).frame
    omega

/-- A machine whose program sets the delay timer to 5 and the sound timer to 1, and then jumps in
place.  Its sound device fails at the rings of the given numbers. -/
def ringOnce (failBeep : List Nat) : Machine PictureLog (FailingSound BeepCount) :=
  (((new (.new ⟨0⟩ failBeep []) {} 0).attach .new).load
    [0x60, 0x05, 0xf0, 0x15, 0x60, 0x01, 0xf0, 0x18, 0x12, 0x08]).start.2

/-- The ring succeeds, so the timers step again a divider later. -/
theorem stepsTimers_again_ringOnce :
    (ringOnce []).StepsTimers ∧ ((ringOnce []).tick.2.actAll [.tick]).StepsTimers ∧
      ¬ (ringOnce []).FailsToRing ∧
      (ringOnce []).frame + 2 ≤ ((ringOnce []).tick.2.actAll [.tick]).frame := by
  obtain ⟨hsteps, hagain, hrings⟩ : (ringOnce []).StepsTimers ∧
      ((ringOnce []).tick.2.actAll [.tick]).StepsTimers ∧ ¬ (ringOnce []).FailsToRing := by
    decide +kernel
  have hreset : ∀ action ∈ [Action.tick (δ := PictureLog)], action ≠ .reset := by simp
  obtain ⟨hsame, hgap⟩ := stepsTimers_again hsteps hreset
  refine ⟨hsteps, hagain, hrings, ?_⟩
  rcases hgap hagain with heq | hle
  · exact absurd (hsame.1 heq).1 hrings
  · exact hle

/-- The ring fails, and the timers step twice at number 0. -/
theorem steppedTwice_ringOnce :
    let m := ringOnce [1]
    m.StepsTimers ∧ m.tick.1 = .error (.audio "beep failed") ∧
      m.tick.2.StepsTimers ∧ m.tick.2.frame = m.frame ∧
      m.tick.2.cpu.timers = ⟨4, 0⟩ ∧ m.tick.2.tick.2.cpu.timers = ⟨3, 0⟩ := by
  decide +kernel

end Machine

end Chip8
