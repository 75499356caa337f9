/-
**What can be done with a machine.**

From outside, a machine is a list of operations: attach a display, start, stop, reset, load a
program, press and let up keys, tick, and run for a while with a clock and a source of keys.  A
property that each of them keeps holds in every state that can be reached.  A run is made of other
operations, and what its parts keep, a run keeps.

Besides the operations, the processor can be worked on directly.  Whatever is done, it comes down to
a list of actions, the runs being taken apart, and the states on the way are those after a part of
the list.

Main definitions:

* `Chip8.Operation` — one operation, with what it is given;
* `Chip8.Machine.perform`, `Chip8.Machine.performAll` — one operation, and a list of them;
* `Chip8.Machine.Kept` — a property that the parts of a run keep;
* `Chip8.Machine.Invariant` — a property that every operation keeps;
* `Chip8.Intervention` — an operation, or a change of the processor from outside, with
  `Chip8.Machine.intervene` and `Chip8.Machine.interveneAll`;
* `Chip8.Machine.trace` — what interventions do, one action after another.

Main results:

* `Chip8.Machine.Kept.run` — what its parts keep, a run keeps;
* `Chip8.Machine.Invariant.performAll` — an invariant holds in every state that can be reached;
* `Chip8.Machine.interveneAll_eq_actAll` — interventions do what their trace says.
-/
import Chip8.Proofs.Action

set_option relaxedAutoImplicit false
set_option autoImplicit false

namespace Chip8

/-- An operation on a machine with a display of type `δ`, with a clock of type `κ` and a source of
keys of type `ι` for its runs. -/
inductive Operation (δ κ ι : Type) where
  | attach (display : δ)
  | start
  | stop
  | reset
  | load (program : List UInt8)
  | loadFrom (source : ByteSource)
  | setKey (key : UInt8)
  | unsetKey (key : UInt8)
  /-- A frame. -/
  | tick
  /-- Up to so many frames, paced by a clock and listening to keys. -/
  | run (limit : Option Nat) (clock : κ) (keys : ι)

namespace Machine

variable {δ σ κ ι : Type}

section Perform

variable [DisplayDevice δ] [SoundDevice σ] [FrameClock κ] [KeyDevice ι]

/-- The machine after an operation, whether that succeeded or not. -/
def perform (m : Machine δ σ) : Operation δ κ ι → Machine δ σ
  | .attach display => m.attach display
  | .start => m.start.2
  | .stop => m.stop
  | .reset => m.reset
  | .load program => m.load program
  | .loadFrom source => (m.loadFrom source).2
  | .setKey key => (m.setKey key).2
  | .unsetKey key => m.unsetKey key
  | .tick => m.tick.2
  | .run limit clock keys => (Console.run limit ⟨m, clock, keys⟩).2.machine

/-- The machine after operations in a row. -/
def performAll (m : Machine δ σ) (operations : List (Operation δ κ ι)) : Machine δ σ :=
  operations.foldl perform m

end Perform

/-! ### Runs -/

section Kept

variable [DisplayDevice δ] [SoundDevice σ]

/-- A property that a machine keeps through the parts of a run. -/
structure Kept (P : Machine δ σ → Prop) : Prop where
  start : ∀ {m}, P m → P m.start.2
  stop : ∀ {m}, P m → P m.stop
  note : ∀ {m} (record : Record), P m → P (m.note record)
  setKey : ∀ {m} (key : UInt8), P m → P (m.setKey key).2
  unsetKey : ∀ {m} (key : UInt8), P m → P (m.unsetKey key)
  tick : ∀ {m}, P m → P m.tick.2

namespace Kept

variable {P : Machine δ σ → Prop}

theorem act (h : Kept P) {action : Action δ} (hrun : action.OfRun) {m : Machine δ σ} (hm : P m) :
    P (m.act action) := by
  cases action with
  | start => exact h.start hm
  | stop => exact h.stop hm
  | setKey key => exact h.setKey key hm
  | unsetKey key => exact h.unsetKey key hm
  | tick => exact h.tick hm
  | note record => exact h.note record hm
  | attach | reset | load | loadFrom | alter => exact hrun.elim

theorem actAll (h : Kept P) {actions : List (Action δ)} (hrun : ∀ action ∈ actions, action.OfRun)
    {m : Machine δ σ} (hm : P m) : P (m.actAll actions) :=
  actAll_keeps (fun action hmem _ hm => h.act (hrun action hmem) hm) hm

theorem noteAll (h : Kept P) (records : List Record) {m : Machine δ σ} (hm : P m) :
    P (m.noteAll records) := by
  rw [noteAll_eq_actAll]
  refine h.actAll ?_ hm
  intro action hmem
  obtain ⟨record, -, rfl⟩ := List.mem_map.1 hmem
  trivial

theorem handle (h : Kept P) (frames : Nat) (events : List KeyEvent) {m : Machine δ σ} (hm : P m) :
    P (Console.handle frames events m).2 := by
  rw [Console.handle_eq_actAll]
  exact h.actAll Console.ofRun_of_mem_handleActions hm

variable [FrameClock κ] [KeyDevice ι]

theorem frame (h : Kept P) (frames : Nat) {c : Console δ σ κ ι} (hc : P c.machine) :
    P (c.frame frames).2.machine := by
  rw [Console.frame_eq_actAll]
  exact h.actAll Console.ofRun_of_mem_frameActions hc

/-- **What its parts keep, a run keeps.** -/
theorem run (h : Kept P) (limit : Option Nat) {c : Console δ σ κ ι} (hc : P c.machine) :
    P (Console.run limit c).2.machine := by
  rw [Console.run_eq_actAll]
  exact h.actAll Console.ofRun_of_mem_actions hc

end Kept

/-! ### Invariants -/

/-- A property that a machine keeps whatever is done with it. -/
structure Invariant (P : Machine δ σ → Prop) : Prop extends Kept P where
  attach : ∀ {m} (display : δ), P m → P (m.attach display)
  reset : ∀ {m}, P m → P m.reset
  load : ∀ {m} (program : List UInt8), P m → P (m.load program)
  loadFrom : ∀ {m} (source : ByteSource), P m → P (m.loadFrom source).2

variable {P : Machine δ σ → Prop} [FrameClock κ] [KeyDevice ι]

theorem Invariant.perform (h : Invariant P) {m : Machine δ σ} (hm : P m)
    (operation : Operation δ κ ι) : P (m.perform operation) := by
  cases operation with
  | attach display => exact h.attach display hm
  | start => exact h.start hm
  | stop => exact h.stop hm
  | reset => exact h.reset hm
  | load program => exact h.load program hm
  | loadFrom source => exact h.loadFrom source hm
  | setKey key => exact h.setKey key hm
  | unsetKey key => exact h.unsetKey key hm
  | tick => exact h.tick hm
  | run limit clock keys => exact h.toKept.run limit hm

/-- **An invariant holds in every state that can be reached.** -/
theorem Invariant.performAll (h : Invariant P) {m : Machine δ σ} (hm : P m)
    (operations : List (Operation δ κ ι)) : P (m.performAll operations) := by
  induction operations generalizing m with
  | nil => exact hm
  | cons operation operations ih => exact ih (h.perform hm operation)

end Kept

end Machine

/-! ### Work on the processor from outside -/

/-- An operation on a machine, or a change that is made to its processor directly. -/
inductive Intervention (δ κ ι : Type) where
  | operation (operation : Operation δ κ ι)
  | alter (cpu : Cpu)

section Interventions

variable {δ σ κ ι : Type} [DisplayDevice δ] [SoundDevice σ] [FrameClock κ] [KeyDevice ι]

/-- What an intervention does to a machine. -/
def Intervention.actions (m : Machine δ σ) : Intervention δ κ ι → List (Action δ)
  | .operation (.attach display) => [.attach display]
  | .operation .start => [.start]
  | .operation .stop => [.stop]
  | .operation .reset => [.reset]
  | .operation (.load program) => [.load program]
  | .operation (.loadFrom source) => [.loadFrom source]
  | .operation (.setKey key) => [.setKey key]
  | .operation (.unsetKey key) => [.unsetKey key]
  | .operation .tick => [.tick]
  | .operation (.run limit clock keys) => Console.actions limit ⟨m, clock, keys⟩
  | .alter cpu => [.alter cpu]

namespace Machine

/-- The machine after an intervention. -/
def intervene (m : Machine δ σ) : Intervention δ κ ι → Machine δ σ
  | .operation operation => m.perform operation
  | .alter cpu => { m with cpu := cpu }

/-- The machine after interventions in a row. -/
def interveneAll (m : Machine δ σ) (interventions : List (Intervention δ κ ι)) : Machine δ σ :=
  interventions.foldl intervene m

/-- What interventions in a row do, one action after another. -/
def trace (m : Machine δ σ) : List (Intervention δ κ ι) → List (Action δ)
  | [] => []
  | intervention :: interventions =>
    intervention.actions m ++ (m.intervene intervention).trace interventions

theorem intervene_eq_actAll (m : Machine δ σ) (intervention : Intervention δ κ ι) :
    m.intervene intervention = m.actAll (intervention.actions m) := by
  cases intervention with
  | alter cpu => rfl
  | operation operation =>
      cases operation with
      | run limit clock keys => exact Console.run_eq_actAll limit ⟨m, clock, keys⟩
      | _ => rfl

/-- **Interventions do what their trace says.** -/
theorem interveneAll_eq_actAll (m : Machine δ σ) (interventions : List (Intervention δ κ ι)) :
    m.interveneAll interventions = m.actAll (m.trace interventions) := by
  induction interventions generalizing m with
  | nil => rfl
  | cons intervention interventions ih =>
      rw [trace, actAll_append, ← intervene_eq_actAll, ← ih]
      rfl

/-- What is true of every action of each intervention is true of every action of the trace. -/
theorem forall_mem_trace {A : Action δ → Prop} {interventions : List (Intervention δ κ ι)}
    (h : ∀ intervention ∈ interventions, ∀ m : Machine δ σ, ∀ action ∈ intervention.actions m,
      A action) (m : Machine δ σ) : ∀ action ∈ m.trace interventions, A action := by
  induction interventions generalizing m with
  | nil => exact fun _ hmem => absurd hmem List.not_mem_nil
  | cons intervention interventions ih =>
      intro action hmem
      rcases List.mem_append.1 hmem with hfirst | hrest
      · exact h intervention (List.mem_cons_self ..) m action hfirst
      · exact ih (fun i hi => h i (List.mem_cons_of_mem _ hi)) _ action hrest

end Machine

end Interventions

end Chip8
