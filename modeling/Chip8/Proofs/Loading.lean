/-
**Loading from a source.**

A program is read from a source call by call.  Each call has room for some bytes, and the source
hands out no more than that, and often less.  A call that gets nothing has come to the end of the
source, and one that fails ends the reading as well.  However the calls and the pieces fall, the bytes
are the same in the end, so what is loaded does not depend on them; and because nothing is written
before the source has run dry, a source that fails midway leaves everything as it was.

Main definitions:

* `Chip8.ByteSource.read` — one call;
* `Chip8.ByteSource.HandsOut` — what a source hands out in calls, and how it ends.

Main results:

* `Chip8.ByteSource.read_cases` — what a call comes to;
* `Chip8.ByteSource.handsOut_iff` — any calls hand out all the pieces in order, and then the source
  ends as it must;
* `Chip8.Machine.loadFrom_allOrNothing` — **a source is loaded like the bytes that it holds, or not
  at all**.
-/
import Chip8.Device.Display
import Chip8.Device.Sound
import Chip8.Machine

set_option relaxedAutoImplicit false
set_option autoImplicit false

namespace Chip8

namespace ByteSource

/-! ### Calls -/

/-- What a call comes to that finds no bytes left. -/
def last (source : ByteSource) : Except IoFailure (List UInt8) :=
  match source.failure with
  | none => .ok []
  | some failure => .error failure

/-- A call with room for so many bytes: it hands out the front of the first piece that is not empty,
and the rest of that piece stays for the next call. -/
def read (source : ByteSource) (room : Nat) : Except IoFailure (List UInt8) × ByteSource :=
  match source.pieces.dropWhile List.isEmpty with
  | [] => (source.last, source)
  | piece :: pieces => (.ok (piece.take room), ⟨piece.drop room :: pieces, source.failure⟩)

/-- In calls that get at most `size` bytes each the source hands out the data, and then it runs dry
or fails. -/
inductive HandsOut (size : Nat) : ByteSource → List UInt8 → Option IoFailure → Prop where
  | dry {source : ByteSource} (room : Nat) :
      0 < room → (source.read room).1 = .ok [] → HandsOut size source [] none
  | failed {source : ByteSource} {failure : IoFailure} (room : Nat) :
      (source.read room).1 = .error failure → HandsOut size source [] (some failure)
  | piece {source : ByteSource} {bytes data : List UInt8} {ending : Option IoFailure}
      (room : Nat) :
      (source.read room).1 = .ok bytes → bytes ≠ [] → bytes.length ≤ size →
      HandsOut size (source.read room).2 data ending →
      HandsOut size source (bytes ++ data) ending

theorem flatten_dropWhile_isEmpty (pieces : List (List UInt8)) :
    (pieces.dropWhile List.isEmpty).flatten = pieces.flatten := by
  induction pieces with
  | nil => rfl
  | cons piece pieces ih =>
      cases piece with
      | nil => exact ih
      | cons b bs => rfl

/-- A call finds no bytes left, or it hands out the front of what is left. -/
theorem read_cases (source : ByteSource) (room : Nat) :
    (source.pieces.flatten = [] ∧ source.read room = (source.last, source)) ∨
    (∃ piece pieces, piece ≠ [] ∧ source.pieces.flatten = piece ++ pieces.flatten ∧
      source.read room =
        (.ok (piece.take room), ⟨piece.drop room :: pieces, source.failure⟩)) := by
  have hflatten := flatten_dropWhile_isEmpty source.pieces
  unfold read
  cases hleft : source.pieces.dropWhile List.isEmpty with
  | nil =>
      rw [hleft] at hflatten
      exact .inl ⟨hflatten.symm, rfl⟩
  | cons piece pieces =>
      rw [hleft] at hflatten
      have hfull : piece ≠ [] := by
        rintro rfl
        have hhead := List.head?_dropWhile_not List.isEmpty source.pieces
        simp [hleft] at hhead
      exact .inr ⟨piece, pieces, hfull, hflatten.symm, rfl⟩

theorem last_eq_ok_iff {source : ByteSource} {bytes : List UInt8} :
    source.last = .ok bytes ↔ bytes = [] ∧ source.failure = none := by
  unfold last
  cases source.failure <;> simp [eq_comm]

theorem last_eq_error_iff {source : ByteSource} {failure : IoFailure} :
    source.last = .error failure ↔ source.failure = some failure := by
  unfold last
  cases source.failure <;> simp

/-- What a call hands out is taken off the front. -/
theorem flatten_of_read {source : ByteSource} {room : Nat} {bytes : List UInt8}
    (h : (source.read room).1 = .ok bytes) :
    source.pieces.flatten = bytes ++ (source.read room).2.pieces.flatten ∧
      (source.read room).2.failure = source.failure := by
  obtain ⟨hnone, hcall⟩ | ⟨piece, pieces, -, hleft, hcall⟩ := source.read_cases room
  · rw [hcall] at h ⊢
    obtain ⟨rfl, -⟩ := last_eq_ok_iff.1 h
    exact ⟨rfl, rfl⟩
  · rw [hcall] at h ⊢
    obtain rfl := Except.ok.inj h
    refine ⟨?_, rfl⟩
    rw [hleft, List.flatten_cons, ← List.append_assoc, List.take_append_drop]

/-- A call with room for a byte gets nothing only if nothing is left. -/
theorem dry_of_read {source : ByteSource} {room : Nat} (hroom : 0 < room)
    (h : (source.read room).1 = .ok []) :
    source.pieces.flatten = [] ∧ source.failure = none := by
  obtain ⟨hnone, hcall⟩ | ⟨piece, pieces, hfull, -, hcall⟩ := source.read_cases room
  · rw [hcall] at h
    exact ⟨hnone, (last_eq_ok_iff.1 h).2⟩
  · rw [hcall] at h
    have hempty : piece.take room = [] := Except.ok.inj h
    rcases List.take_eq_nil_iff.1 hempty with hzero | hnil
    · exact absurd hzero (Nat.ne_of_gt hroom)
    · exact absurd hnil hfull

theorem failed_of_read {source : ByteSource} {room : Nat} {failure : IoFailure}
    (h : (source.read room).1 = .error failure) :
    source.pieces.flatten = [] ∧ source.failure = some failure := by
  obtain ⟨hnone, hcall⟩ | ⟨piece, pieces, -, -, hcall⟩ := source.read_cases room
  · rw [hcall] at h
    exact ⟨hnone, last_eq_error_iff.1 h⟩
  · rw [hcall] at h
    cases h

/-! ### Reading to the end -/

/-- Calls hand out all the pieces in order, and then the source ends as it must. -/
theorem HandsOut.eq {size : Nat} {source : ByteSource} {data : List UInt8}
    {ending : Option IoFailure} (h : source.HandsOut size data ending) :
    source.pieces.flatten = data ∧ source.failure = ending := by
  induction h with
  | dry room hroom hread => exact dry_of_read hroom hread
  | failed room hread => exact failed_of_read hread
  | piece room hread _ _ _ ih =>
      obtain ⟨hflatten, hfailure⟩ := flatten_of_read hread
      obtain ⟨hdata, hending⟩ := ih
      exact ⟨by rw [hflatten, hdata], by rw [← hfailure, hending]⟩

/-- A source can be read in calls of any size. -/
theorem handsOut_self {size : Nat} (hsize : 0 < size) (source : ByteSource) :
    source.HandsOut size source.pieces.flatten source.failure := by
  -- each call leaves fewer bytes
  induction hn : source.pieces.flatten.length using Nat.strongRecOn generalizing source with
  | ind n ih =>
      obtain ⟨hnone, hcall⟩ | ⟨piece, pieces, hfull, -, hcall⟩ := source.read_cases size
      · rw [hnone]
        cases hfailure : source.failure with
        | none => exact .dry size hsize (by rw [hcall, last_eq_ok_iff.2 ⟨rfl, hfailure⟩])
        | some failure => exact .failed size (by rw [hcall, last_eq_error_iff.2 hfailure])
      · have hread : (source.read size).1 = .ok (piece.take size) := by rw [hcall]
        obtain ⟨hflatten, hfailure⟩ := flatten_of_read hread
        have hbytes : piece.take size ≠ [] := by
          simp [List.take_eq_nil_iff, hfull, Nat.ne_of_gt hsize]
        have hfewer : (source.read size).2.pieces.flatten.length < n := by
          have hpos := List.length_pos_iff.2 hbytes
          rw [← hn, hflatten, List.length_append]
          omega
        have hrest := ih _ hfewer (source.read size).2 rfl
        rw [hfailure] at hrest
        rw [hflatten]
        exact .piece size hread hbytes (List.length_take_le ..) hrest

/-- Whatever the size of the calls, they hand out the pieces in order and end as the source does. -/
theorem handsOut_iff {size : Nat} (hsize : 0 < size) {source : ByteSource} {data : List UInt8}
    {ending : Option IoFailure} :
    source.HandsOut size data ending ↔
      source.pieces.flatten = data ∧ source.failure = ending := by
  constructor
  · exact HandsOut.eq
  · rintro ⟨rfl, rfl⟩
    exact handsOut_self hsize source

theorem handsOut_chunked {size : Nat} (hsize : 0 < size) (data : List UInt8) :
    (chunked data size none).HandsOut size data none := by
  rw [handsOut_iff hsize]
  exact ⟨flatten_splitEvery size data, rfl⟩

/-- Data that fails at a position hands out what lies before it. -/
theorem handsOut_chunked_of_le {size : Nat} (hsize : 0 < size) {data : List UInt8} {n : Nat}
    (hn : n ≤ data.length) (failure : IoFailure) :
    (chunked data size (some (n, failure))).HandsOut size (data.take n) (some failure) := by
  rw [handsOut_iff hsize, chunked, if_pos hn]
  exact ⟨flatten_splitEvery size (data.take n), rfl⟩

theorem HandsOut.readAll_of_none {size : Nat} {source : ByteSource} {data : List UInt8}
    (h : source.HandsOut size data none) : source.readAll = .ok data := by
  obtain ⟨hdata, hending⟩ := h.eq
  simp [readAll, hdata, hending]

theorem HandsOut.readAll_of_some {size : Nat} {source : ByteSource} {data : List UInt8}
    {failure : IoFailure} (h : source.HandsOut size data (some failure)) :
    source.readAll = .error failure := by
  obtain ⟨-, hending⟩ := h.eq
  simp [readAll, hending]

end ByteSource

/-! ### From the source into memory -/

theorem Memory.writeFrom_of_ok {source : ByteSource} {bytes : List UInt8}
    (h : source.readAll = .ok bytes) (m : Memory) (addr : UInt16) :
    m.writeFrom addr source = (.ok bytes.length, m.writeBytes addr bytes) := by
  rw [writeFrom, h]

theorem Memory.writeFrom_of_error {source : ByteSource} {failure : IoFailure}
    (h : source.readAll = .error failure) (m : Memory) (addr : UInt16) :
    m.writeFrom addr source = (.error failure, m) := by
  rw [writeFrom, h]

theorem Cpu.loadFrom_of_ok {source : ByteSource} {program : List UInt8}
    (h : source.readAll = .ok program) (c : Cpu) :
    c.loadFrom source = (.ok program.length, c.load program) := by
  rw [loadFrom, Memory.loadFrom, Memory.writeFrom_of_ok h]
  rfl

theorem Cpu.loadFrom_of_error {source : ByteSource} {failure : IoFailure}
    (h : source.readAll = .error failure) (c : Cpu) :
    c.loadFrom source = (.error (.io failure), c) := by
  rw [loadFrom, Memory.loadFrom, Memory.writeFrom_of_error h]
  rfl

namespace Machine

variable {δ σ : Type}

/-- **A source is loaded like the bytes that it holds, or not at all.**  Any data can be had in calls
of any size, from a source that then runs dry and from one that then fails.  If it runs dry, memory,
processor and machine are as if the data had been written as they are, and the answer is their
length, whatever the calls were.  If it fails, the answer is its failure, and nothing has changed. -/
theorem loadFrom_allOrNothing (memory : Memory) (addr : UInt16) (c : Cpu) (m : Machine δ σ)
    (data : List UInt8) {size : Nat} (hsize : 0 < size) :
    (∀ ending, ∃ source : ByteSource, source.HandsOut size data ending) ∧
    (∀ source : ByteSource, source.HandsOut size data none →
      memory.writeFrom addr source = (.ok data.length, memory.writeBytes addr data) ∧
      memory.loadFrom source = (.ok data.length, memory.load data) ∧
      c.loadFrom source = (.ok data.length, c.load data) ∧
      m.loadFrom source = (.ok data.length, m.load data)) ∧
    (∀ (source : ByteSource) (failure : IoFailure),
      source.HandsOut size data (some failure) →
      memory.writeFrom addr source = (.error failure, memory) ∧
      memory.loadFrom source = (.error failure, memory) ∧
      c.loadFrom source = (.error (.io failure), c) ∧
      m.loadFrom source = (.error (.io failure), m)) := by
  refine ⟨?_, ?_, ?_⟩
  · intro ending
    cases ending with
    | none => exact ⟨_, ByteSource.handsOut_chunked hsize data⟩
    | some failure =>
        have hlate := ByteSource.handsOut_chunked_of_le hsize (Nat.le_refl data.length) failure
        rw [List.take_length] at hlate
        exact ⟨_, hlate⟩
  · intro source h
    have hread := h.readAll_of_none
    refine ⟨Memory.writeFrom_of_ok hread memory addr,
      Memory.writeFrom_of_ok hread memory memory.programAddr, Cpu.loadFrom_of_ok hread c, ?_⟩
    rw [loadFrom, Cpu.loadFrom_of_ok hread]
    rfl
  · intro source failure h
    have hread := h.readAll_of_some
    refine ⟨Memory.writeFrom_of_error hread memory addr,
      Memory.writeFrom_of_error hread memory memory.programAddr, Cpu.loadFrom_of_error hread c, ?_⟩
    rw [loadFrom, Cpu.loadFrom_of_error hread]

/-- A machine into which nothing has been loaded. -/
def unloaded : Machine PictureLog Mute :=
  (new .mute {} 0).attach .new

/-- Three bytes in pieces of two: all of them, and cut off after the first piece. -/
theorem loadFrom_allOrNothing_inTwos :
    (ByteSource.chunked [0x12, 0x34, 0x56] 2 none).HandsOut 2 [0x12, 0x34, 0x56] none ∧
      unloaded.loadFrom (.chunked [0x12, 0x34, 0x56] 2 none) =
        (.ok 3, unloaded.load [0x12, 0x34, 0x56]) ∧
      (ByteSource.chunked [0x12, 0x34, 0x56] 2 (some (2, .other "read failed"))).HandsOut 2
        [0x12, 0x34] (some (.other "read failed")) ∧
      unloaded.loadFrom (.chunked [0x12, 0x34, 0x56] 2 (some (2, .other "read failed"))) =
        (.error (.io (.other "read failed")), unloaded) := by
  have htwo : 0 < 2 := by decide
  have hwhole := ByteSource.handsOut_chunked htwo [0x12, 0x34, 0x56]
  have hcut := ByteSource.handsOut_chunked_of_le htwo
    (show 2 ≤ [(0x12 : UInt8), 0x34, 0x56].length by decide) (.other "read failed")
  obtain ⟨-, hload, -⟩ := loadFrom_allOrNothing unloaded.cpu.memory 0x200 unloaded.cpu unloaded
    [0x12, 0x34, 0x56] htwo
  obtain ⟨-, -, hkeep⟩ := loadFrom_allOrNothing unloaded.cpu.memory 0x200 unloaded.cpu unloaded
    [0x12, 0x34] htwo
  exact ⟨hwhole, (hload _ hwhole).2.2.2, hcut, (hkeep _ _ hcut).2.2.2⟩

end Machine

end Chip8
