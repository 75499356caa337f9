/-
**Devices that do not fail.**

A device may have failed in the past.  What a machine does from now on depends on it only through the
answers that it gives from now on, whatever it is asked for.  A machine is *reliable* if it has a
display and neither of its devices will ever fail again.  Nothing that is done with a reliable machine
makes it less so, for its devices only get into states that they were known to get into.

Main definitions:

* `Chip8.AlwaysShows`, `Chip8.AlwaysSounds` — devices that never fail from now on;
* `Chip8.SoundReaches` — the states that a sound device gets into;
* `Chip8.Machine.Leads` — the devices of a machine were asked for things;
* `Chip8.Machine.Reliable` — a machine with such devices.

Main results:

* `Chip8.alwaysShows_failingDisplay` — a display whose planned failures are over;
* `Chip8.Machine.leads_tick`, `Chip8.Machine.leads_act` — what a machine makes of its devices;
* `Chip8.Machine.Reliable.cycle`, `Chip8.Machine.Reliable.present`,
  `Chip8.Machine.Reliable.finishFrame` — the parts of a frame of a reliable machine fail in no other
  way than by a fault.
-/
import Chip8.Proofs.Pacing

set_option relaxedAutoImplicit false
set_option autoImplicit false

namespace Chip8

/-! ### Displays and sound devices -/

/-- A display that never fails from now on. -/
def AlwaysShows {δ : Type} [DisplayDevice δ] (d : δ) : Prop :=
  ∀ d', DisplayReaches d d' →
    (DisplayDevice.clear d').1 = .ok () ∧ ∀ pixels, (DisplayDevice.render d' pixels).1 = .ok ()

/-- The states that a sound device gets into by being asked to ring and told of frames. -/
inductive SoundReaches {σ : Type} [SoundDevice σ] (s : σ) : σ → Prop where
  | refl : SoundReaches s s
  | beep {s' : σ} (h : SoundReaches s s') : SoundReaches s (SoundDevice.beep s').2
  | update {s' : σ} (h : SoundReaches s s') : SoundReaches s (SoundDevice.update s').2

/-- A sound device that never fails from now on. -/
def AlwaysSounds {σ : Type} [SoundDevice σ] (s : σ) : Prop :=
  ∀ s', SoundReaches s s' →
    (SoundDevice.beep s').1 = .ok () ∧ (SoundDevice.update s').1 = .ok ()

section Devices

variable {δ σ : Type} [DisplayDevice δ] [SoundDevice σ]

theorem SoundReaches.trans {s s' s'' : σ} (h : SoundReaches s s') (h' : SoundReaches s' s'') :
    SoundReaches s s'' := by
  induction h' with
  | refl => exact h
  | beep _ ih => exact ih.beep
  | update _ ih => exact ih.update

theorem AlwaysShows.alwaysClears {d : δ} (h : AlwaysShows d) : AlwaysClears d :=
  fun d' hreaches => (h d' hreaches).1

theorem alwaysShows_pictureLog (d : PictureLog) : AlwaysShows d :=
  fun _ _ => ⟨rfl, fun _ => rfl⟩

theorem alwaysSounds_mute (s : Mute) : AlwaysSounds s :=
  fun _ _ => ⟨rfl, rfl⟩

theorem alwaysSounds_beepCount (s : BeepCount) : AlwaysSounds s :=
  fun _ _ => ⟨rfl, rfl⟩

/-- A display in front of another one never fails again once its planned failures are over, if the
one behind it does not. -/
theorem alwaysShows_failingDisplay {d : FailingDisplay δ}
    (hrender : ∀ call ∈ d.failRender, call ≤ d.renderCalls)
    (hclear : ∀ call ∈ d.failClear, call ≤ d.clearCalls) (hinner : AlwaysShows d.inner) :
    AlwaysShows d := by
  -- the calls are only counted upwards, so the next one is not among the planned failures
  have hreaches : ∀ d', DisplayReaches d d' →
      (∀ call ∈ d'.failRender, call ≤ d'.renderCalls) ∧
        (∀ call ∈ d'.failClear, call ≤ d'.clearCalls) ∧ DisplayReaches d.inner d'.inner := by
    intro d' h
    induction h with
    | refl => exact ⟨hrender, hclear, .refl⟩
    | @clear d' _ ih =>
        obtain ⟨hrender', hclear', hbehind⟩ := ih
        have hpast : d'.clearCalls + 1 ∉ d'.failClear :=
          fun hmem => Nat.not_succ_le_self _ (hclear' _ hmem)
        simp only [DisplayDevice.clear, if_neg hpast]
        exact ⟨hrender', fun call hmem => Nat.le_succ_of_le (hclear' call hmem), hbehind.clear⟩
    | @render d' pixels _ ih =>
        obtain ⟨hrender', hclear', hbehind⟩ := ih
        have hpast : d'.renderCalls + 1 ∉ d'.failRender :=
          fun hmem => Nat.not_succ_le_self _ (hrender' _ hmem)
        simp only [DisplayDevice.render, if_neg hpast]
        exact ⟨fun call hmem => Nat.le_succ_of_le (hrender' call hmem), hclear',
          hbehind.render pixels⟩
  intro d' h
  obtain ⟨hrender', hclear', hbehind⟩ := hreaches d' h
  obtain ⟨hclears, hshows⟩ := hinner _ hbehind
  have hclearPast : d'.clearCalls + 1 ∉ d'.failClear :=
    fun hmem => Nat.not_succ_le_self _ (hclear' _ hmem)
  have hrenderPast : d'.renderCalls + 1 ∉ d'.failRender :=
    fun hmem => Nat.not_succ_le_self _ (hrender' _ hmem)
  refine ⟨?_, fun pixels => ?_⟩
  · simp only [DisplayDevice.clear, if_neg hclearPast]
    exact hclears
  · simp only [DisplayDevice.render, if_neg hrenderPast]
    exact hshows pixels

end Devices

namespace Machine

variable {δ σ : Type}

theorem start_sound (m : Machine δ σ) : m.start.2.sound = m.sound := by
  unfold start
  split <;> rfl

theorem reset_display (m : Machine δ σ) : m.reset.display = m.display := by
  rw [reset, note]

theorem reset_sound (m : Machine δ σ) : m.reset.sound = m.sound := by
  rw [reset, note]

variable [DisplayDevice δ] [SoundDevice σ]

/-! ### What a machine makes of its devices -/

/-- The devices of `m'` are those of `m` after having been asked for things. -/
structure Leads (m m' : Machine δ σ) : Prop where
  display : ∀ d, m.display = some d → ∃ d', m'.display = some d' ∧ DisplayReaches d d'
  sound : SoundReaches m.sound m'.sound

namespace Leads

theorem of_same {m m' : Machine δ σ} (hdisplay : m'.display = m.display)
    (hsound : m'.sound = m.sound) : Leads m m' := by
  refine ⟨fun d hd => ⟨d, hdisplay.trans hd, .refl⟩, ?_⟩
  rw [hsound]
  exact .refl

theorem trans {m m₁ m₂ : Machine δ σ} (h : Leads m m₁) (h' : Leads m₁ m₂) : Leads m m₂ := by
  refine ⟨fun d hd => ?_, h.sound.trans h'.sound⟩
  obtain ⟨d₁, hd₁, hfirst⟩ := h.display d hd
  obtain ⟨d₂, hd₂, hsecond⟩ := h'.display d₁ hd₁
  exact ⟨d₂, hd₂, hfirst.trans hsecond⟩

end Leads

theorem leads_clearDisplay (m : Machine δ σ) : Leads m m.clearDisplay.2 := by
  cases hd : m.display with
  | none =>
      have hsame : m.clearDisplay = (.ok (), m) := by simp [clearDisplay, hd]
      rw [hsame]
      exact .of_same rfl rfl
  | some d =>
      refine ⟨fun d' hd' => ?_, ?_⟩
      · obtain rfl : d = d' := Option.some.inj (hd.symm.trans hd')
        exact ⟨_, by simp only [clearDisplay, hd], .clear .refl⟩
      · simp only [clearDisplay, hd]
        exact .refl

theorem leads_renderDisplay (m : Machine δ σ) : Leads m m.renderDisplay.2 := by
  cases hd : m.display with
  | none =>
      have hsame : m.renderDisplay = (.ok (), m) := by simp [renderDisplay, hd]
      rw [hsame]
      exact .of_same rfl rfl
  | some d =>
      refine ⟨fun d' hd' => ?_, ?_⟩
      · obtain rfl : d = d' := Option.some.inj (hd.symm.trans hd')
        exact ⟨_, by simp only [renderDisplay, hd], .render m.cpu.screen.pixels .refl⟩
      · simp only [renderDisplay, hd]
        exact .refl

theorem leads_ring (m : Machine δ σ) : Leads m m.ring.2 :=
  ⟨fun d hd => ⟨d, hd, .refl⟩, .beep .refl⟩

theorem leads_updateSound (m : Machine δ σ) : Leads m m.updateSound.2 :=
  ⟨fun d hd => ⟨d, hd, .refl⟩, .update .refl⟩

theorem leads_cycle (m : Machine δ σ) : Leads m m.cycle.2 := by
  rcases hout : m.cpu.step.outcome with e | flow
  · rw [cycle_of_error hout]
    exact .of_same rfl rfl
  · cases flow with
    | next =>
        rw [cycle_of_next hout]
        exact .of_same rfl rfl
    | cleared =>
        rw [cycle_of_cleared hout]
        have hexecuted : Leads m m.executed := .of_same rfl rfl
        exact hexecuted.trans m.executed.leads_clearDisplay
    | awaitKey register =>
        rw [cycle_of_awaitKey hout]
        exact .of_same rfl rfl

theorem leads_present (m : Machine δ σ) : Leads m m.present.2 := by
  unfold present
  simp only
  split
  · have htaken : Leads m { m with cpu := m.cpu.takeDrawPending.2 } := .of_same rfl rfl
    exact htaken.trans (leads_renderDisplay _)
  · exact .of_same rfl rfl

theorem leads_decay (m : Machine δ σ) : Leads m m.decay.2 := by
  unfold decay
  simp only
  split
  · have hticked : Leads m { m with cpu := m.cpu.tickTimers.2 } := .of_same rfl rfl
    split
    · exact hticked.trans (leads_ring _)
    · exact hticked
  · exact .of_same rfl rfl

theorem leads_finishFrame (m : Machine δ σ) : Leads m m.finishFrame.2 := by
  have hdecay := m.leads_decay
  rcases hresult : m.decay with ⟨e | ⟨⟩, m₁⟩
  · rw [hresult] at hdecay
    simp only [finishFrame, hresult]
    exact hdecay
  · rw [hresult] at hdecay
    have hcounted : Leads m₁ { m₁ with frame := m₁.frame + 1 } := .of_same rfl rfl
    simp only [finishFrame, hresult]
    exact (hdecay.trans hcounted).trans (leads_updateSound _)

/-- A frame asks the devices for things. -/
theorem leads_tick (m : Machine δ σ) : Leads m m.tick.2 :=
  tick_keeps (P := Leads m) (fun m' _ h => h.trans m'.leads_cycle)
    (fun m' h => h.trans m'.leads_present) (fun m' h => h.trans m'.leads_finishFrame)
    (.of_same rfl rfl)

/-- Apart from frames, only a new display makes a difference to the devices. -/
theorem leads_act {action : Action δ} (hattach : ∀ display, action ≠ .attach display)
    (m : Machine δ σ) : Leads m (m.act action) := by
  cases action with
  | attach display => exact absurd rfl (hattach display)
  | start => exact .of_same m.start_display m.start_sound
  | stop =>
      simp only [act, Machine.stop]
      split <;> exact .of_same rfl rfl
  | setKey key =>
      simp only [act, Machine.setKey]
      split
      · exact .of_same (start_display _) (start_sound _)
      all_goals exact .of_same rfl rfl
  | reset => exact .of_same m.reset_display m.reset_sound
  | tick => exact m.leads_tick
  | load | loadFrom | unsetKey | note | alter => exact .of_same rfl rfl

/-! ### Reliable machines -/

/-- The machine has a display, and its devices never fail from now on. -/
structure Reliable (m : Machine δ σ) : Prop where
  shows : ∃ d, m.display = some d ∧ AlwaysShows d
  sounds : AlwaysSounds m.sound

namespace Reliable

variable {m m' : Machine δ σ}

theorem of_leads (h : m.Reliable) (hleads : Leads m m') : m'.Reliable := by
  obtain ⟨d, hd, hshows⟩ := h.shows
  obtain ⟨d', hd', hreaches⟩ := hleads.display d hd
  refine ⟨⟨d', hd', ?_⟩, ?_⟩
  · exact fun later hlater => hshows later (hreaches.trans hlater)
  · exact fun later hlater => h.sounds later (hleads.sound.trans hlater)

theorem attached (h : m.Reliable) : m.display.isSome = true := by
  obtain ⟨d, hd, -⟩ := h.shows
  rw [hd]
  rfl

theorem clearable (h : m.Reliable) : m.Clearable := by
  intro d hd
  obtain ⟨d', hd', hshows⟩ := h.shows
  obtain rfl : d' = d := Option.some.inj (hd'.symm.trans hd)
  exact hshows.alwaysClears

/-- An instruction of a reliable machine fails only if its step does. -/
theorem cycle (h : m.Reliable) :
    m.cycle.1 = m.cpu.step.outcome.map (fun _ => ()) ∧
      m.cycle.2.state = stateAfter m.state m.cpu.currentWord m.cpu.step.outcome ∧
      m.cycle.2.Reliable := by
  obtain ⟨hresult, -, hstate, -⟩ := h.clearable.cycle
  exact ⟨hresult, hstate, h.of_leads m.leads_cycle⟩

/-- A reliable machine shows its picture. -/
theorem present (h : m.Reliable) : m.present.1 = .ok () := by
  obtain ⟨d, hd, hshows⟩ := h.shows
  unfold Machine.present
  simp only
  split
  · have hshown := (hshows d .refl).2 m.cpu.screen.pixels
    simp only [renderDisplay, hd]
    exact congrArg (Except.mapError Error.io) hshown
  · rfl

theorem decay (h : m.Reliable) : m.decay.1 = .ok () := by
  unfold Machine.decay
  simp only
  split
  · split
    · exact congrArg (Except.mapError Error.audio) (h.sounds _ .refl).1
    · rfl
  · rfl

/-- A reliable machine finishes its frame, and counts it. -/
theorem finishFrame (h : m.Reliable) :
    m.finishFrame.1 = .ok () ∧ m.finishFrame.2.frame = m.frame + 1 := by
  have hrang := h.decay
  have hlater := h.of_leads m.leads_decay
  obtain ⟨hframe, -, -⟩ := m.finishFrame_frame
  rw [hrang] at hframe
  refine ⟨?_, hframe⟩
  rcases hdecayed : m.decay with ⟨e | ⟨⟩, m₁⟩
  · rw [hdecayed] at hrang
    cases hrang
  · rw [hdecayed] at hlater
    simp only [Machine.finishFrame, hdecayed]
    exact congrArg (Except.mapError Error.audio) (hlater.sounds _ .refl).2

end Reliable

end Machine

end Chip8
