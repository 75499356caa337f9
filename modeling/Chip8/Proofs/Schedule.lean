/-
**When the timers step.**

The timers step in the frames whose number is a multiple of the divider, whatever the machine is up
to.  So while every frame succeeds and no instruction sets a timer, the timers after some frames are
what is left of them after so many steps as there are multiples of the divider among the numbers of
the frames.  The sound device rings once if the sound timer runs out in them, in the frame in which
it takes its last step, and else not at all.

The invariant is `Chip8.Machine.OnSchedule`, which relates a machine to the one that it was some
frames before.  A frame keeps it, with one frame more, and what is done between frames keeps it as
it is.

Main definitions:

* `Chip8.Instruction.setsTimer` — the instructions that set a timer;
* `Chip8.Machine.dueFrames` — how many of the next frames step the timers;
* `Chip8.Machine.OnSchedule` — the machine some frames later.

Main results:

* `Chip8.Machine.tick_leaves` — a frame that succeeds and sets no timer;
* `Chip8.Machine.OnSchedule.tick`, `Chip8.Machine.OnSchedule.actAll` — a frame keeps the schedule,
  and so do actions in a row;
* `Chip8.Machine.timers_on_schedule` — **the timers count the multiples of the divider, and the last
  step of the sound timer rings**.
-/
import Chip8.Proofs.FrameNumber

set_option relaxedAutoImplicit false
set_option autoImplicit false

namespace Chip8

/-- Whether an instruction sets a timer. -/
def Instruction.setsTimer : Instruction → Bool
  | setDelay _ | setSound _ => true
  | _ => false

/-! ### Instructions that leave the timers alone -/

namespace Cpu

theorem skipIf_timers (c : Cpu) (condition : Bool) : (c.skipIf condition).timers = c.timers := by
  cases condition <;> rfl

theorem timers_execute (c : Cpu) {instruction : Instruction}
    (h : instruction.setsTimer = false) : (c.execute instruction).2.timers = c.timers := by
  cases instruction
  case setDelay | setSound => cases h
  case ret => rcases hpop : c.registers.pop with e | r <;> simp only [execute, hpop]
  case call target => rcases hpush : c.registers.push with e | r <;> simp only [execute, hpush]
  case skipIfByte | skipUnlessByte | skipIfSame | skipUnlessSame | skipIfKey | skipUnlessKey =>
      exact c.skipIf_timers _
  all_goals rfl

theorem timers_after {c : Cpu} {n : Nat}
    (h : ∀ instruction ∈ (c.words n).map Instruction.decode, instruction.setsTimer = false) :
    (c.after n).timers = c.timers := by
  induction n with
  | zero => rfl
  | succ n ih =>
      rw [words_succ, List.map_append, List.forall_mem_append] at h
      obtain ⟨hbefore, hlast⟩ := h
      have hword := hlast (.decode (c.after n).currentWord) (by simp)
      rw [after_succ, step_cpu, timers_execute _ hword]
      exact ih hbefore

end Cpu

namespace Machine

variable {δ σ : Type}

/-! ### The schedule -/

/-- How many of the next `n` frames have a number that is a multiple of the divider. -/
def dueFrames (m : Machine δ σ) (n : Nat) : Nat :=
  (List.range' m.frame n).countP (max m.config.timerDivider 1 ∣ ·)

theorem dueFrames_succ (m : Machine δ σ) (n : Nat) :
    m.dueFrames (n + 1) =
      m.dueFrames n + if max m.config.timerDivider 1 ∣ m.frame + n then 1 else 0 := by
  simp [dueFrames, List.range'_concat, List.countP_append, List.countP_cons]

/-- What a sound timer has rung in so many steps. -/
def rungIn (sound steps : Nat) : List Bool :=
  if 0 < sound ∧ sound ≤ steps then [true] else []

/-- The machine `m'` is `m` some frames later.  All of these were counted, those that were due
stepped the timers, and the sound device rang if the sound timer ran out. -/
structure OnSchedule (m : Machine δ σ) (n : Nat) (m' : Machine δ σ) : Prop where
  config : m'.config = m.config
  frame : m'.frame = m.frame + n
  delay : m'.cpu.timers.delay.toNat = m.cpu.timers.delay.toNat - m.dueFrames n
  sound : m'.cpu.timers.sound.toNat = m.cpu.timers.sound.toNat - m.dueFrames n
  adds : ∃ executed shown,
    Adds m m' executed shown (rungIn m.cpu.timers.sound.toNat (m.dueFrames n))

namespace OnSchedule

theorem refl (m : Machine δ σ) : OnSchedule m 0 m := by
  have hnone : rungIn m.cpu.timers.sound.toNat (m.dueFrames 0) = [] := by
    refine if_neg ?_
    simp only [dueFrames, List.range'_zero, List.countP_nil]
    omega
  refine ⟨rfl, rfl, rfl, rfl, [], [], ?_⟩
  rw [hnone]
  exact .of_eq rfl

variable {m m' m₁ : Machine δ σ} {n : Nat}

/-- What is done between frames is not on the schedule. -/
theorem idle (h : OnSchedule m n m') (hidle : Idle m' m₁) : OnSchedule m n m₁ := by
  obtain ⟨executed, shown, hadds⟩ := h.adds
  obtain ⟨noted, hnoted⟩ := hidle.adds
  have hboth := hadds.trans hnoted
  rw [List.append_nil, List.append_nil] at hboth
  refine ⟨hidle.config.trans h.config, hidle.frame.trans h.frame, ?_, ?_, _, _, hboth⟩
  · rw [hidle.timers]
    exact h.delay
  · rw [hidle.timers]
    exact h.sound

theorem timersDue_iff (h : OnSchedule m n m') :
    m'.timersDue = true ↔ max m.config.timerDivider 1 ∣ m.frame + n := by
  rw [m'.timersDue_iff, h.config, h.frame]

/-- One more counter of the timers goes by the schedule. -/
theorem counter (h : OnSchedule m n m') {counter : UInt8} {start : Nat}
    (hcounter : counter.toNat = start - m.dueFrames n) :
    (if m'.timersDue then Timers.stepDown counter else counter).toNat =
      start - m.dueFrames (n + 1) := by
  have hsucc := m.dueFrames_succ n
  split
  · rename_i hdue
    rw [if_pos (h.timersDue_iff.1 hdue)] at hsucc
    rw [Timers.toNat_stepDown]
    omega
  · rename_i hnot
    rw [if_neg fun hdvd => hnot (h.timersDue_iff.2 hdvd)] at hsucc
    omega

/-- The sound timer takes its last step in the next frame if this is a due frame, and as many frames
were due as the sound timer had steps. -/
theorem lastStep_iff (h : OnSchedule m n m') :
    (m'.timersDue && m'.cpu.timers.sound == 1) = true ↔
      max m.config.timerDivider 1 ∣ m.frame + n ∧
        m.dueFrames (n + 1) = m.cpu.timers.sound.toNat := by
  have hone : m'.cpu.timers.sound = 1 ↔ m.cpu.timers.sound.toNat - m.dueFrames n = 1 := by
    rw [← h.sound, ← UInt8.toNat_inj]
    rfl
  rw [Bool.and_eq_true, beq_iff_eq, hone, h.timersDue_iff, m.dueFrames_succ]
  refine and_congr_right fun hdue => ?_
  rw [if_pos hdue]
  omega

/-- What the next frame rings is what the schedule says. -/
theorem rungIn_succ (h : OnSchedule m n m') :
    rungIn m.cpu.timers.sound.toNat (m.dueFrames n) ++
        (if m'.timersDue && m'.cpu.timers.sound == 1 then [true] else []) =
      rungIn m.cpu.timers.sound.toNat (m.dueFrames (n + 1)) := by
  have hlast := h.lastStep_iff
  have hsucc := m.dueFrames_succ n
  unfold rungIn
  by_cases hdue : max m.config.timerDivider 1 ∣ m.frame + n
  · rw [if_pos hdue] at hsucc
    by_cases hnow : m.dueFrames (n + 1) = m.cpu.timers.sound.toNat
    · -- the last step is the next one, so there was no ring yet
      rw [if_pos (hlast.2 ⟨hdue, hnow⟩), if_neg (by omega), if_pos (by omega)]
      rfl
    · have hsame : m.cpu.timers.sound.toNat ≤ m.dueFrames n ↔
          m.cpu.timers.sound.toNat ≤ m.dueFrames (n + 1) := by omega
      rw [if_neg fun hboth => hnow (hlast.1 hboth).2, List.append_nil]
      exact if_congr (and_congr_right fun _ => hsame) rfl rfl
  · rw [if_neg hdue] at hsucc
    rw [if_neg fun hboth => hdue (hlast.1 hboth).1, List.append_nil, hsucc, Nat.add_zero]

end OnSchedule

/-! ### Frames on the schedule -/

variable [DisplayDevice δ] [SoundDevice σ]

/-- A frame that succeeds and sets no timer: it is counted, it steps the timers if they are due, and
it rings if the sound timer takes its last step. -/
theorem tick_leaves {m : Machine δ σ} (hok : m.tick.1 = .ok ())
    (hleaves : ¬ m.TickExecutes Instruction.setsTimer) :
    m.tick.2.config = m.config ∧ m.tick.2.frame = m.frame + 1 ∧
      m.tick.2.cpu.timers = (if m.timersDue then m.cpu.timers.tick.2 else m.cpu.timers) ∧
      ∃ executed shown, Adds m m.tick.2 executed shown
        (if m.timersDue && m.cpu.timers.sound == 1 then [true] else []) := by
  obtain ⟨steps, shown, hpresents, hexecuted, -⟩ := m.tick_executes
  have hthrough := getsThrough_of_ok hok
  have htick := tick_of_getsThrough hthrough
  obtain ⟨hframe, hconfig, hrang⟩ := m.presented.finishFrame_frame
  have hadds := hpresents.adds.trans m.presented.finishFrame_adds
  rw [← htick] at hframe hconfig hrang hadds
  -- the timers come to their turn as they were
  have hwords : ∀ instruction ∈ (m.cpu.words steps).map Instruction.decode,
      instruction.setsTimer = false := by
    intro instruction hmem
    rw [← hexecuted] at hmem
    exact Bool.eq_false_iff.2 fun hsets => hleaves ⟨instruction, hmem, hsets⟩
  have htimers : m.presented.cpu.timers = m.cpu.timers := by
    rw [hpresents.cpu]
    exact Cpu.timers_after hwords
  rw [hrang hok, presented_timersDue, htimers, List.nil_append] at hadds
  rw [hrang hok, if_pos rfl, hpresents.frame] at hframe
  refine ⟨hconfig.trans hpresents.config, hframe, ?_, _, _, hadds⟩
  split
  · rename_i hdue
    rw [m.tick_timers.1 ⟨hthrough, hdue⟩, htimers]
  · rename_i hnot
    rw [m.tick_timers.2 fun hsteps => hnot hsteps.2, htimers]

namespace OnSchedule

variable {m m' : Machine δ σ} {n : Nat}

/-- **A frame that succeeds keeps the schedule.** -/
theorem tick (h : OnSchedule m n m') (hok : m'.tick.1 = .ok ())
    (hleaves : ¬ m'.TickExecutes Instruction.setsTimer) : OnSchedule m (n + 1) m'.tick.2 := by
  obtain ⟨hconfig, hframe, htimers, _, _, hticked⟩ := tick_leaves hok hleaves
  obtain ⟨_, _, hadds⟩ := h.adds
  have hboth := hadds.trans hticked
  rw [h.rungIn_succ] at hboth
  refine ⟨hconfig.trans h.config, by rw [hframe, h.frame, Nat.add_assoc], ?_, ?_, _, _, hboth⟩
  · rw [htimers, apply_ite Timers.delay]
    exact h.counter h.delay
  · rw [htimers, apply_ite Timers.sound]
    exact h.counter h.sound

/-- Actions keep the schedule, with as many frames more as there are among them. -/
theorem actAll (h : OnSchedule m n m') {actions : List (Action δ)}
    (hkeeps : ∀ action ∈ actions, action.KeepsTime)
    (hok : EveryFrame (fun now => now.tick.1 = .ok ()) m' actions)
    (hleaves : EveryFrame (fun now => ¬ now.TickExecutes Instruction.setsTimer) m' actions) :
    OnSchedule m (n + actions.countP Action.isTick) (m'.actAll actions) := by
  induction actions generalizing n m' with
  | nil => exact h
  | cons action actions ih =>
      obtain ⟨hfirst, hrest⟩ := List.forall_mem_cons.1 hkeeps
      rw [actAll_cons]
      by_cases htick : action = .tick
      · subst htick
        obtain ⟨hok₁, hok⟩ := EveryFrame.cons_tick.1 hok
        obtain ⟨hleaves₁, hleaves⟩ := EveryFrame.cons_tick.1 hleaves
        have hlater := ih (h.tick hok₁ hleaves₁) hrest hok hleaves
        rw [List.countP_cons_of_pos rfl, Nat.add_comm (actions.countP _), ← Nat.add_assoc]
        exact hlater
      · have hidle := h.idle (idle_act hfirst htick m')
        rw [List.countP_cons_of_neg (mt Action.isTick_iff.1 htick)]
        exact ih hidle hrest hok.tail hleaves.tail

end OnSchedule

/-- **The timers count the multiples of the divider, and the last step of the sound timer rings.**
Take frames that succeed and set no timer, and whatever else that neither resets the machine nor
works on its processor from outside.  The timers have gone down by as many steps as there are
multiples of the divider among the numbers of the frames, but not below zero.  The sound device rang
once if the sound timer has run out on the way, and else not at all; and the frame that it rang in
is the due one with which as many frames were due as the sound timer had steps. -/
theorem timers_on_schedule {m : Machine δ σ} {actions : List (Action δ)}
    (hkeeps : ∀ action ∈ actions, action.KeepsTime)
    (hok : EveryFrame (fun now => now.tick.1 = .ok ()) m actions)
    (hleaves : EveryFrame (fun now => ¬ now.TickExecutes Instruction.setsTimer) m actions) :
    let sound := m.cpu.timers.sound.toNat
    let steps := m.dueFrames (actions.countP Action.isTick)
    let final := m.actAll actions
    final.cpu.timers.delay.toNat = m.cpu.timers.delay.toNat - steps ∧
      final.cpu.timers.sound.toNat = sound - steps ∧
      rings (m.newEvents final) = (if 0 < sound ∧ sound ≤ steps then [true] else []) ∧
      ∀ before after, actions = before ++ .tick :: after →
        let now := m.actAll before
        let earlier := before.countP Action.isTick
        now.frame = m.frame + earlier ∧
          rings (now.newEvents now.tick.2) =
            if max m.config.timerDivider 1 ∣ now.frame ∧ m.dueFrames (earlier + 1) = sound then
              [true] else [] := by
  have hstart := OnSchedule.refl m
  have hfinal := hstart.actAll hkeeps hok hleaves
  rw [Nat.zero_add] at hfinal
  obtain ⟨_, _, hadds⟩ := hfinal.adds
  refine ⟨hfinal.delay, hfinal.sound, hadds.rings, ?_⟩
  rintro before after rfl
  have hkeeps' := (List.forall_mem_append.1 hkeeps).1
  have hnow := hstart.actAll hkeeps' hok.of_append hleaves.of_append
  rw [Nat.zero_add] at hnow
  obtain ⟨-, -, -, _, _, hticked⟩ := tick_leaves (hok before after rfl) (hleaves before after rfl)
  refine ⟨hnow.frame, ?_⟩
  rw [hticked.rings, hnow.frame]
  exact if_congr hnow.lastStep_iff rfl rfl

/-- A machine that has completed three frames, and whose program waits for a key. -/
def waitsAtThree : Machine PictureLog BeepCount :=
  ((new ⟨0⟩ { cyclesPerFrame := 1 } 0).attach .new).actAll
    [.tick, .tick, .tick, .alter { (Cpu.new 0).load [0xf0, 0x0a] with timers := ⟨5, 2⟩ }]

/-- Frames 3 to 6: the machine is stopped, running, waiting and running again. -/
def threeToSix : List (Action PictureLog) :=
  [.tick, .start, .tick, .stop, .tick, .setKey 7, .unsetKey 7, .tick]

theorem timers_on_schedule_threeToSix :
    waitsAtThree.frame = 3 ∧ waitsAtThree.dueFrames 4 = 2 ∧
      (waitsAtThree.actAll threeToSix).cpu.timers.delay.toNat = 5 - 2 ∧
      (waitsAtThree.actAll threeToSix).cpu.timers.sound.toNat = 2 - 2 ∧
      rings (waitsAtThree.newEvents (waitsAtThree.actAll threeToSix)) = [true] := by
  have hkeeps : ∀ action ∈ threeToSix, action.KeepsTime := by simp [threeToSix, Action.KeepsTime]
  have hframes : threeToSix.countP Action.isTick = 4 := rfl
  obtain ⟨hok, hleaves, hframe, hfive, htwo, hdue⟩ :
      EveryFrame (fun now => now.tick.1 = .ok ()) waitsAtThree threeToSix ∧
        EveryFrame (fun now => ¬ now.TickExecutes Instruction.setsTimer) waitsAtThree threeToSix ∧
        waitsAtThree.frame = 3 ∧ waitsAtThree.cpu.timers.delay.toNat = 5 ∧
        waitsAtThree.cpu.timers.sound.toNat = 2 ∧ waitsAtThree.dueFrames 4 = 2 := by decide +kernel
  obtain ⟨hdelay, hsound, hrings, -⟩ := timers_on_schedule hkeeps hok hleaves
  rw [hfive, hframes, hdue] at hdelay
  rw [htwo, hframes, hdue] at hsound hrings
  exact ⟨hframe, hdue, hdelay, hsound, hrings⟩

end Machine

end Chip8
