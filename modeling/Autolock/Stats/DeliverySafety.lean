import Autolock.Stats.Delivery
import Autolock.Stats.RoundTrip

namespace Autolock
namespace Stats

open Concurrency Data

/-!
# Undisturbed runs deliver every slice once

As long as nobody interferes, the entry that a recorder has looked up stays the
one behind the offset, and a write-out resets the offset that it has read.  So
the bytes before the offset are at any time those that a write-out has just
copied, followed by the slices completed since.
-/

namespace Delivery

/-! ## The recorder of one CPU -/

/-- What has been written of a slice is where the offset says, if there is room. -/
def Partly (s : SchedStats) (cpu : Nat) (ts : Timespec) (entries : List TaskEntry) : Prop :=
  s.Fits cpu entries.length ∧ forall cur, s.curEntry cpu = some cur -> InPlace s.out cur ts entries

/-- The slice is complete but for the offset. -/
def Wholly (s : SchedStats) (cpu : Nat) (ts : Timespec) (entries : List TaskEntry) : Prop :=
  (s.curEntry cpu).isSome = true ∧ s.Fits cpu entries.length ∧
    s.out.Holds (SchedStats.region cpu + (s.offsets cpu).toNat)
      (StatsEntry.bytes ⟨ts, UInt32.ofNat cpu, entries⟩)

def RecorderOk (s : SchedStats) (cpu : Nat) : RecorderPc -> Prop
  | .idle => True
  | .stamp cur => cur = s.curEntry cpu
  | .slice ts entries => Partly s cpu ts entries
  | .add ts entries _ cur => cur = s.curEntry cpu ∧ Partly s cpu ts entries
  -- without an entry the slice is dropped
  | .count _ _ none => True
  | .count ts entries (some cur) => s.curEntry cpu = some cur ∧ Partly s cpu ts entries
  | .load ts entries => Wholly s cpu ts entries
  | .store ts entries offset => offset = s.offsets cpu ∧ Wholly s cpu ts entries

/-- Only what lies behind the offset of the CPU, in its region, has been written. -/
structure Scratches (s s' : SchedStats) (cpu : Nat) : Prop where
  allocated : s'.allocated = s.allocated
  offsets : s'.offsets = s.offsets
  out : forall a, a < SchedStats.region cpu + (s.offsets cpu).toNat ∨
    SchedStats.region cpu + AUTO_LOCK_STATS_SIZE ≤ a -> s'.out a = s.out a

/-- The offsets and regions of the other CPUs are as they were. -/
structure Elsewhere (s s' : SchedStats) (cpu : Nat) : Prop where
  allocated : s'.allocated = s.allocated
  offsets : forall cpu', cpu' ≠ cpu -> s'.offsets cpu' = s.offsets cpu'
  out : forall cpu', cpu' ≠ cpu -> forall a, SchedStats.region cpu' ≤ a ->
    a < SchedStats.region cpu' + AUTO_LOCK_STATS_SIZE -> s'.out a = s.out a

section recorder

variable {s s' : SchedStats} {cpu cpu' cur : Nat} {ts : Timespec} {entries : List TaskEntry}

theorem Scratches.refl (s : SchedStats) (cpu : Nat) : Scratches s s cpu :=
  ⟨rfl, rfl, fun _ _ => rfl⟩

theorem Scratches.unmoved (scratches : Scratches s s' cpu) : s.Unmoved s' :=
  ⟨scratches.allocated, scratches.offsets⟩

/-- Stores behind the offset leave the pending bytes. -/
theorem Scratches.pending (scratches : Scratches s s' cpu) : s'.pending cpu = s.pending cpu := by
  rw [SchedStats.pending_eq_iff, scratches.offsets, SchedStats.pending_length]
  refine ⟨rfl, (ByteMemory.holds_read s.out _ _).congr fun a _ below => scratches.out a ?_⟩
  rw [ByteMemory.read_length] at below
  exact Or.inl below

theorem Scratches.elsewhere (scratches : Scratches s s' cpu) : Elsewhere s s' cpu where
  allocated := scratches.allocated
  offsets := fun cpu' _ => congrFun scratches.offsets cpu'
  out := by
    intro cpu' different a above below
    refine scratches.out a ?_
    rcases Nat.lt_or_gt_of_ne different with less | more
    · have := SchedStats.region_add_le less
      omega
    · have := SchedStats.region_add_le more
      omega

theorem elsewhere_setOffset (s : SchedStats) (cpu : Nat) (offset : UInt32) :
    Elsewhere s (s.setOffset cpu offset) cpu where
  allocated := rfl
  offsets := fun _ different => Function.update_of_ne different _ _
  out := fun _ _ _ _ _ => rfl

theorem Elsewhere.pending (elsewhere : Elsewhere s s' cpu) (different : cpu' ≠ cpu)
    (inside : (s.offsets cpu').toNat ≤ AUTO_LOCK_STATS_SIZE) :
    s'.pending cpu' = s.pending cpu' := by
  rw [SchedStats.pending_eq_iff, elsewhere.offsets cpu' different, SchedStats.pending_length]
  refine ⟨rfl, (ByteMemory.holds_read s.out _ _).congr fun a above below =>
    elsewhere.out cpu' different a above ?_⟩
  rw [ByteMemory.read_length] at below
  omega

/-- What a recorder relies on is in its own region. -/
theorem RecorderOk.congr {pc : RecorderPc} (ok : RecorderOk s cpu pc)
    (allocated : s'.allocated = s.allocated) (offset : s'.offsets cpu = s.offsets cpu)
    (out : forall a, SchedStats.region cpu ≤ a ->
      a < SchedStats.region cpu + AUTO_LOCK_STATS_SIZE -> s'.out a = s.out a) :
    RecorderOk s' cpu pc := by
  have entry : s'.curEntry cpu = s.curEntry cpu := by
    rw [SchedStats.curEntry, SchedStats.curEntry, allocated, offset]
  have fits : forall n, s'.Fits cpu n <-> s.Fits cpu n := by
    intro n
    rw [SchedStats.Fits, SchedStats.Fits, entry, offset]
  have partly : forall ts entries, Partly s cpu ts entries -> Partly s' cpu ts entries := by
    rintro ts entries ⟨room, placed⟩
    refine ⟨(fits _).mpr room, fun cur there => ?_⟩
    rw [entry] at there
    have ends := room (by rw [there]; rfl)
    refine (placed cur there).congr fun a above below => ?_
    rcases SchedStats.curEntry_eq_some there with ⟨rfl, _⟩
    exact out a (by omega) (by omega)
  have wholly : forall ts entries, Wholly s cpu ts entries -> Wholly s' cpu ts entries := by
    rintro ts entries ⟨there, room, holds⟩
    have ends := room there
    refine ⟨by rwa [entry], (fits _).mpr room, ?_⟩
    rw [offset]
    refine holds.congr fun a above below => out a (by omega) ?_
    rw [StatsEntry.bytes_length] at below
    dsimp only at below
    omega
  cases pc with
  | idle => trivial
  | stamp cur => exact ok.trans entry.symm
  | slice ts entries => exact partly ts entries ok
  | add ts entries task cur => exact ⟨ok.1.trans entry.symm, partly ts entries ok.2⟩
  | count ts entries cur =>
      cases cur with
      | none => trivial
      | some cur => exact ⟨entry.trans ok.1, partly ts entries ok.2⟩
  | load ts entries => exact wholly ts entries ok
  | store ts entries offset' => exact ⟨ok.1.trans offset.symm, wholly ts entries ok.2⟩

/-- Without a slice under way there is nothing to rely on. -/
theorem recorderOk_of_not_underWay {pc : RecorderPc} (idle : ¬UnderWay (.recorder pc)) :
    RecorderOk s cpu pc := by
  cases pc with
  | idle => trivial
  | count ts entries cur =>
      cases cur with
      | none => trivial
      | some cur => exact absurd trivial idle
  | _ => exact absurd trivial idle

theorem Elsewhere.recorderOk (elsewhere : Elsewhere s s' cpu) (different : cpu' ≠ cpu)
    {pc : RecorderPc} (ok : RecorderOk s cpu' pc) : RecorderOk s' cpu' pc :=
  ok.congr elsewhere.allocated (elsewhere.offsets cpu' different) (elsewhere.out cpu' different)

/-- A store behind the offset that ends inside the region. -/
theorem scratches_write {address : Nat} {bytes : List UInt8}
    (above : SchedStats.region cpu + (s.offsets cpu).toNat ≤ address)
    (below : address + bytes.length ≤ SchedStats.region cpu + AUTO_LOCK_STATS_SIZE) :
    Scratches s (s.write cpu address bytes) cpu where
  allocated := rfl
  offsets := rfl
  out := by
    intro a outside
    exact ByteMemory.write_of_outside (by omega)

/-- The number of tasks of an entry that fits is a number of 32 bits. -/
theorem toNat_ofNat_of_fits {offset n numEntries : Nat} (few : n ≤ numEntries)
    (ends : offset + entrySize + taskEntrySize * numEntries ≤ AUTO_LOCK_STATS_SIZE) :
    (UInt32.ofNat n).toNat = n := by
  refine UInt32.toNat_ofNat_of_lt' ?_
  simp only [AUTO_LOCK_STATS_SIZE, entrySize, taskEntrySize] at ends
  simp only [UInt32.size]
  omega

/-- The time is written at the beginning of the entry. -/
theorem partly_writeTs (s : SchedStats) (cpu : Nat) (ts : Timespec) :
    Partly (s.writeTs cpu ts (s.curEntry cpu)) cpu ts [] ∧
      Scratches s (s.writeTs cpu ts (s.curEntry cpu)) cpu := by
  cases entry : s.curEntry cpu with
  | none =>
      refine ⟨⟨fun there => ?_, fun cur there => ?_⟩, .refl s cpu⟩
      · rw [SchedStats.writeTs, entry] at there
        exact absurd there Bool.false_ne_true
      · rw [SchedStats.writeTs, entry] at there
        cases there
  | some cur =>
      rcases SchedStats.curEntry_eq_some entry with ⟨rfl, room⟩
      have scratches : Scratches s
          (s.writeTs cpu ts (some (SchedStats.region cpu + (s.offsets cpu).toNat))) cpu := by
        refine scratches_write (Nat.le_refl _) ?_
        rw [Timespec.bytes_length]
        simp only [AUTO_LOCK_STATS_SIZE] at room ⊢
        omega
      refine ⟨⟨fun _ => ?_, fun cur there => ?_⟩, scratches⟩
      · rw [scratches.offsets]
        simp only [AUTO_LOCK_STATS_SIZE, entrySize, List.length_nil] at room ⊢
        omega
      · rw [scratches.unmoved.curEntry, entry] at there
        rcases Option.some.inj there with rfl
        exact .start _ _ _

/-- A task is written behind those that are in place. -/
theorem Partly.writeTask (partly : Partly s cpu ts entries) (room : s.Fits cpu (entries.length + 1))
    (entry : TaskEntry) :
    Partly (s.writeTask cpu entry (UInt32.ofNat entries.length) (s.curEntry cpu)) cpu ts
        (entries ++ [entry]) ∧
      Scratches s (s.writeTask cpu entry (UInt32.ofNat entries.length) (s.curEntry cpu)) cpu := by
  cases there : s.curEntry cpu with
  | none =>
      refine ⟨⟨fun some => ?_, fun cur some => ?_⟩, .refl s cpu⟩
      · rw [SchedStats.writeTask, there] at some
        exact absurd some Bool.false_ne_true
      · rw [SchedStats.writeTask, there] at some
        cases some
  | some cur =>
      have ends := room (by rw [there]; rfl)
      have placed := partly.2 cur there
      rcases SchedStats.curEntry_eq_some there with ⟨rfl, _⟩
      have idx := toNat_ofNat_of_fits (Nat.le_succ entries.length) ends
      have scratches : Scratches s (s.writeTask cpu entry (UInt32.ofNat entries.length)
          (some (SchedStats.region cpu + (s.offsets cpu).toNat))) cpu := by
        refine scratches_write (by omega) ?_
        rw [TaskEntry.bytes_length, idx]
        rw [Nat.mul_succ] at ends
        omega
      refine ⟨⟨fun _ => ?_, fun cur some => ?_⟩, scratches⟩
      · rw [scratches.offsets, List.length_append]
        exact ends
      · rw [scratches.unmoved.curEntry, there] at some
        rcases Option.some.inj some with rfl
        rw [SchedStats.writeTask, SchedStats.write_out, idx]
        exact placed.add entry

/-- With the count the slice is complete. -/
theorem Partly.writeCount (partly : Partly s cpu ts entries) (there : s.curEntry cpu = some cur) :
    Wholly (s.writeCount cpu (UInt32.ofNat entries.length) cur) cpu ts entries ∧
      Scratches s (s.writeCount cpu (UInt32.ofNat entries.length) cur) cpu := by
  have ends := partly.1 (by rw [there]; rfl)
  have placed := partly.2 cur there
  rcases SchedStats.curEntry_eq_some there with ⟨rfl, _⟩
  have count := toNat_ofNat_of_fits (Nat.le_refl entries.length) ends
  have scratches : Scratches s (s.writeCount cpu (UInt32.ofNat entries.length)
      (SchedStats.region cpu + (s.offsets cpu).toNat)) cpu := by
    refine scratches_write (Nat.le_add_right _ 16) ?_
    rw [countBytes_length]
    simp only [entrySize] at ends
    omega
  refine ⟨⟨?_, fun _ => ?_, ?_⟩, scratches⟩
  · rw [scratches.unmoved.curEntry, there]
    rfl
  · rwa [scratches.offsets]
  · rw [scratches.offsets, SchedStats.writeCount, SchedStats.write_out, count]
    exact placed.finish _

/-- The offset behind a complete slice appends it. -/
theorem Wholly.setOffset (wholly : Wholly s cpu ts entries) :
    let entry : StatsEntry := ⟨ts, UInt32.ofNat cpu, entries⟩
    let s' := s.setOffset cpu (SchedStats.advanced (s.offsets cpu) (UInt32.ofNat entries.length))
    s'.pending cpu = s.pending cpu ++ entry.bytes ∧
      (s'.offsets cpu).toNat ≤ AUTO_LOCK_STATS_SIZE := by
  rcases wholly with ⟨there, room, holds⟩
  have ends := room there
  have count := toNat_ofNat_of_fits (Nat.le_refl entries.length) ends
  intro entry s'
  have ends' : (s.offsets cpu).toNat + entry.bytes.length ≤ AUTO_LOCK_STATS_SIZE := by
    rw [StatsEntry.bytes_length, ← Nat.add_assoc]
    exact ends
  have appended : s.Appended s' cpu entry := by
    refine ⟨holds, fun _ _ => rfl, ?_, rfl⟩
    rw [SchedStats.setOffset_offsets, SchedStats.advanced, count, StatsEntry.bytes_length,
      Nat.add_assoc]
  have pending := appended.pending ends'
  refine ⟨pending, ?_⟩
  rw [← SchedStats.pending_length, pending, List.length_append, SchedStats.pending_length]
  exact ends'

/-- A step of the recorder scratches behind the offset or appends the slice. -/
theorem recorderStep_effect {pc pc' : RecorderPc} {action : StatsAction} {event : StatsEvent}
    (ok : RecorderOk s cpu pc) (slot : SchedStats.HasSlot cpu)
    (room : forall ts entries entry cur, pc = .add ts entries entry cur ->
      s.Fits cpu (entries.length + 1))
    (stepped : recorderStep cpu action s pc = some (s', pc', event)) :
    RecorderOk s' cpu pc' ∧ Elsewhere s s' cpu ∧
      (event = .internal ∧ s'.offsets = s.offsets ∧ s'.pending cpu = s.pending cpu ∨
        exists entry, event = .completed cpu entry ∧
          s'.pending cpu = s.pending cpu ++ entry.bytes ∧
          (s'.offsets cpu).toNat ≤ AUTO_LOCK_STATS_SIZE) := by
  have inner : Scratches s s' cpu -> Elsewhere s s' cpu ∧
      (StatsEvent.internal = .internal ∧ s'.offsets = s.offsets ∧ s'.pending cpu = s.pending cpu ∨
        exists entry, StatsEvent.internal = .completed cpu entry ∧
          s'.pending cpu = s.pending cpu ++ entry.bytes ∧
          (s'.offsets cpu).toNat ≤ AUTO_LOCK_STATS_SIZE) := fun scratches =>
    ⟨scratches.elsewhere, .inl ⟨rfl, scratches.offsets, scratches.pending⟩⟩
  cases pc <;> cases action <;>
    simp only [recorderStep, reduceCtorEq, SchedStats.lookUp_of_hasSlot s cpu slot,
      SchedStats.access_of_hasSlot slot] at stepped
  case idle.start =>
    cases stepped
    exact ⟨rfl, inner (.refl s cpu)⟩
  case stamp.time =>
    cases stepped
    rcases ok with rfl
    have wrote := partly_writeTs s cpu
    exact ⟨(wrote _).1, inner (wrote _).2⟩
  case slice.add =>
    cases stepped
    exact ⟨⟨rfl, ok⟩, inner (.refl s cpu)⟩
  case slice.finish ts entries =>
    cases entries with
    | nil => cases stepped
    | cons entry entries =>
        cases stepped
        refine ⟨?_, inner (.refl s cpu)⟩
        cases there : s.curEntry cpu with
        | none => trivial
        | some cur => exact ⟨there, ok⟩
  case add.run =>
    cases stepped
    rcases ok with ⟨rfl, partly⟩
    have wrote := partly.writeTask (room _ _ _ _ rfl)
    exact ⟨(wrote _).1, inner (wrote _).2⟩
  case count.run ts entries cur =>
    cases cur with
    | none =>
        cases stepped
        exact ⟨trivial, inner (.refl s cpu)⟩
    | some cur =>
        cases stepped
        have wrote := ok.2.writeCount ok.1
        exact ⟨wrote.1, inner wrote.2⟩
  case load.run =>
    cases stepped
    exact ⟨⟨rfl, ok⟩, inner (.refl s cpu)⟩
  case store.run =>
    cases stepped
    rcases ok with ⟨rfl, wholly⟩
    exact ⟨trivial, elsewhere_setOffset s cpu _, .inr ⟨_, rfl, wholly.setOffset⟩⟩

/-- A recorder that has its offset in the array stays within it. -/
theorem recorderStep_overrun {pc pc' : RecorderPc} {action : StatsAction} {event : StatsEvent}
    (slot : SchedStats.HasSlot cpu) (stepped : recorderStep cpu action s pc = some (s', pc', event)) :
    s'.overrun = s.overrun := by
  unfold recorderStep at stepped
  split at stepped <;> cases stepped
  case h_1 | h_3 | h_4 => rw [SchedStats.lookUp_of_hasSlot s cpu slot]
  case h_2 cur ts => cases cur <;> rfl
  case h_5 entry cur => cases cur <;> rfl
  case h_6 | h_7 => rfl
  case h_8 => rw [SchedStats.access_of_hasSlot slot]
  case h_9 =>
    rw [SchedStats.setOffset, SchedStats.access_of_hasSlot slot]

end recorder

/-! ## All CPUs and all write-outs -/

section runs

variable {Writer : Type} {trace : List ((Nat ⊕ Writer) × StatsEvent)} {cpu : Nat}

theorem completedOn_concat (cpu : Nat) (trace : List ((Nat ⊕ Writer) × StatsEvent))
    (label : (Nat ⊕ Writer) × StatsEvent) :
    completedOn cpu (trace ++ [label]) = completedOn cpu trace ++ completedOn cpu [label] :=
  List.filterMap_append

theorem deliveredOn_concat (cpu : Nat) (trace : List ((Nat ⊕ Writer) × StatsEvent))
    (label : (Nat ⊕ Writer) × StatsEvent) :
    deliveredOn cpu (trace ++ [label]) = deliveredOn cpu trace ++ deliveredOn cpu [label] :=
  List.filterMap_append

/-- So many bytes of the CPU have been copied and not yet reset, by one write-out. -/
structure Outstanding (thread : Nat ⊕ Writer -> StatsThread) (cpu n : Nat) : Prop where
  owner : n = 0 ∨ exists w, copiedBytes cpu (thread (.inr w)) = n
  copied : forall w, copiedBytes cpu (thread (.inr w)) = 0 ∨ copiedBytes cpu (thread (.inr w)) = n
  alone : forall w w', copiedBytes cpu (thread (.inr w)) ≠ 0 ->
    copiedBytes cpu (thread (.inr w')) ≠ 0 -> w = w'

/-- Only what the write-outs have copied matters. -/
theorem Outstanding.congr {thread thread' : Nat ⊕ Writer -> StatsThread} {n : Nat}
    (outstanding : Outstanding thread cpu n)
    (same : forall w, copiedBytes cpu (thread' (.inr w)) = copiedBytes cpu (thread (.inr w))) :
    Outstanding thread' cpu n where
  owner := by simpa only [same] using outstanding.owner
  copied := by simpa only [same] using outstanding.copied
  alone := by simpa only [same] using outstanding.alone

/-- What has been completed on a CPU, what of it has been handed out, and what
lies before its offset. -/
def Ledger (trace : List ((Nat ⊕ Writer) × StatsEvent))
    (s : Machine (Nat ⊕ Writer) SchedStats StatsThread) (cpu : Nat) : Prop :=
  exists (copies : List (List StatsEntry)) (pending : List StatsEntry) (gone : List UInt8),
    completedOn cpu trace = copies.flatten ++ pending ∧
      deliveredOn cpu trace = copies.map statsFormat.encodeAll ∧
      s.shared.pending cpu = gone ++ statsFormat.encodeAll pending ∧
      Outstanding s.thread cpu gone.length

structure Inv (trace : List ((Nat ⊕ Writer) × StatsEvent))
    (s : Machine (Nat ⊕ Writer) SchedStats StatsThread) : Prop where
  inBounds : s.shared.overrun = false
  inside : forall cpu, (s.shared.offsets cpu).toNat ≤ AUTO_LOCK_STATS_SIZE
  recorders : forall cpu pc, s.thread (.inl cpu) = .recorder pc -> RecorderOk s.shared cpu pc
  ledger : forall cpu, Ledger trace s cpu

variable {s : Machine (Nat ⊕ Writer) SchedStats StatsThread} {shared' : SchedStats}
  {thread' : Nat ⊕ Writer -> StatsThread} {label : (Nat ⊕ Writer) × StatsEvent}

/-- A step that neither completes nor hands out anything. -/
theorem Ledger.quiet (ledger : Ledger trace s cpu) (completed : completedOn cpu [label] = [])
    (delivered : deliveredOn cpu [label] = [])
    (pending : shared'.pending cpu = s.shared.pending cpu)
    (same : forall w, copiedBytes cpu (thread' (.inr w)) = copiedBytes cpu (s.thread (.inr w))) :
    Ledger (trace ++ [label]) ⟨shared', thread'⟩ cpu := by
  rcases ledger with ⟨copies, pend, gone, completes, delivers, lies, outstanding⟩
  refine ⟨copies, pend, gone, ?_, ?_, pending.trans lies, outstanding.congr same⟩
  · rw [completedOn_concat, completed, List.append_nil, completes]
  · rw [deliveredOn_concat, delivered, List.append_nil, delivers]

/-- A slice is completed. -/
theorem Ledger.complete (ledger : Ledger trace s cpu) {entry : StatsEntry}
    (completed : completedOn cpu [label] = [entry]) (delivered : deliveredOn cpu [label] = [])
    (pending : shared'.pending cpu = s.shared.pending cpu ++ entry.bytes)
    (same : forall w, copiedBytes cpu (thread' (.inr w)) = copiedBytes cpu (s.thread (.inr w))) :
    Ledger (trace ++ [label]) ⟨shared', thread'⟩ cpu := by
  rcases ledger with ⟨copies, pend, gone, completes, delivers, lies, outstanding⟩
  refine ⟨copies, pend ++ [entry], gone, ?_, ?_, ?_, outstanding.congr same⟩
  · rw [completedOn_concat, completed, completes, List.append_assoc]
  · rw [deliveredOn_concat, delivered, List.append_nil, delivers]
  · rw [pending, lies, List.append_assoc, RecordFormat.encodeAll_append,
      RecordFormat.encodeAll_singleton]
    rfl

/-- A step on one CPU is none on another. -/
theorem completedOn_of_ne {cpu' : Nat} (different : cpu' ≠ cpu) (t : Nat ⊕ Writer)
    (entry : StatsEntry) : completedOn cpu' [(t, .completed cpu entry)] = [] := by
  simp [completedOn, Ne.symm different]

/-- Behind the reset a write-out has copied nothing, and its step is about no slice. -/
theorem nextCpu_quiet (numCpus i offset cpu : Nat) (t : Nat ⊕ Writer) :
    copiedBytes cpu (.writer (nextCpu numCpus i offset).1) = 0 ∧
      completedOn cpu [(t, (nextCpu numCpus i offset).2)] = [] ∧
      deliveredOn cpu [(t, (nextCpu numCpus i offset).2)] = [] := by
  unfold nextCpu
  split <;> exact ⟨rfl, rfl, rfl⟩

theorem Inv.start (initial : nothingRecorded s) : Inv [] s := by
  rcases initial with ⟨_, fine, offsets, recorders, writers⟩
  refine ⟨fine, fun cpu => ?_, fun cpu pc there => ?_, fun cpu => ?_⟩
  · rw [offsets cpu]
    exact Nat.zero_le _
  · rw [recorders cpu] at there
    rcases there
    trivial
  · refine ⟨[], [], [], rfl, rfl, ?_, Or.inl rfl, fun w => Or.inl ?_, fun w _ some _ => ?_⟩
    · simp [SchedStats.pending, offsets cpu, ByteMemory.read, RecordFormat.encodeAll]
    · rw [writers w]
      rfl
    · rw [writers w] at some
      exact absurd rfl some

theorem Inv.exactlyOnce (inv : Inv trace s) : ExactlyOnce trace s := by
  refine ⟨inv.inBounds, fun cpu => ?_⟩
  rcases inv.ledger cpu with ⟨copies, pend, gone, completes, delivers, lies, outstanding⟩
  rcases SchedStats.pending_eq_iff.mp lies with ⟨length, holds⟩
  rw [List.length_append] at length
  rw [ByteMemory.holds_append] at holds
  exact ⟨copies, pend, gone.length, completes, delivers, length, holds.2, outstanding.owner⟩

variable [DecidableEq Writer]

theorem Inv.recorder (inv : Inv trace s) {pc pc' : RecorderPc} {action : StatsAction}
    {event : StatsEvent} (here : s.thread (.inl cpu) = .recorder pc)
    (undisturbed : Undisturbed s (.inl cpu))
    (stepped : recorderStep cpu action s.shared pc = some (shared', pc', event)) :
    Inv (trace ++ [(.inl cpu, event)])
      ⟨shared', Function.update s.thread (.inl cpu) (.recorder pc')⟩ := by
  have room : forall ts entries entry cur, pc = .add ts entries entry cur ->
      s.shared.Fits cpu (entries.length + 1) := by
    rintro ts entries entry cur rfl
    simp only [Undisturbed, here] at undisturbed
    exact undisturbed.2
  have slot : SchedStats.HasSlot cpu := by
    cases pc with
    | add ts entries entry cur =>
        simp only [Undisturbed, here] at undisturbed
        exact undisturbed.1
    | _ => simpa only [Undisturbed, here] using undisturbed
  have writers : forall cpu' w,
      copiedBytes cpu' (Function.update s.thread (.inl cpu) (.recorder pc') (.inr w)) =
        copiedBytes cpu' (s.thread (.inr w)) := by
    intro cpu' w
    rw [Function.update_of_ne Sum.inr_ne_inl]
  rcases recorderStep_effect (inv.recorders cpu pc here) slot room stepped with
    ⟨ok, elsewhere, moved⟩
  refine ⟨(recorderStep_overrun slot stepped).trans inv.inBounds, fun cpu' => ?_, fun cpu' other there => ?_, fun cpu' => ?_⟩
  · by_cases same : cpu' = cpu
    · rcases same
      rcases moved with ⟨_, offsets, _⟩ | ⟨_, _, _, inside⟩
      · exact (congrFun offsets cpu).symm ▸ inv.inside cpu
      · exact inside
    · exact elsewhere.offsets cpu' same ▸ inv.inside cpu'
  · by_cases same : cpu' = cpu
    · rcases same
      dsimp only at there
      rw [Function.update_self] at there
      rcases there
      exact ok
    · dsimp only at there
      rw [Function.update_of_ne (Sum.inl_injective.ne same)] at there
      exact elsewhere.recorderOk same (inv.recorders cpu' other there)
  · by_cases same : cpu' = cpu
    · rcases same
      rcases moved with ⟨rfl, _, pending⟩ | ⟨entry, rfl, pending, _⟩
      · exact (inv.ledger cpu).quiet rfl rfl pending (writers cpu)
      · exact (inv.ledger cpu).complete (by simp [completedOn]) rfl pending (writers cpu)
    · have pending := elsewhere.pending same (inv.inside cpu')
      rcases moved with ⟨rfl, _⟩ | ⟨entry, rfl, _⟩
      · exact (inv.ledger cpu').quiet rfl rfl pending (writers cpu')
      · exact (inv.ledger cpu').quiet (completedOn_of_ne same _ entry) rfl pending (writers cpu')

/-- What a step of a write-out does to the recorders and the offsets. -/
theorem Inv.writer_of_ledger (inv : Inv trace s) {w : Writer} {pc' : WriterPc} {event : StatsEvent}
    (inBounds : shared'.overrun = s.shared.overrun)
    (inside : forall cpu, (shared'.offsets cpu).toNat ≤ AUTO_LOCK_STATS_SIZE)
    (recorders : forall cpu pc, s.thread (.inl cpu) = .recorder pc ->
      RecorderOk s.shared cpu pc -> RecorderOk shared' cpu pc)
    (ledger : forall cpu, Ledger trace s cpu -> Ledger (trace ++ [(.inr w, event)])
      ⟨shared', Function.update s.thread (.inr w) (.writer pc')⟩ cpu) :
    Inv (trace ++ [(.inr w, event)])
      ⟨shared', Function.update s.thread (.inr w) (.writer pc')⟩ where
  inBounds := inBounds.trans inv.inBounds
  inside := inside
  recorders := by
    intro cpu pc there
    dsimp only at there
    rw [Function.update_of_ne Sum.inl_ne_inr] at there
    exact recorders cpu pc there (inv.recorders cpu pc there)
  ledger := fun cpu => ledger cpu (inv.ledger cpu)

/-- The step of a write-out that has copied nothing of the CPU, and has not done so after it. -/
theorem copiedBytes_update {w : Writer} {pc' : WriterPc} {cpu : Nat}
    (before : copiedBytes cpu (s.thread (.inr w)) = 0)
    (after : copiedBytes cpu (.writer pc') = 0) (u : Writer) :
    copiedBytes cpu (Function.update s.thread (.inr w) (.writer pc') (.inr u)) =
      copiedBytes cpu (s.thread (.inr u)) := by
  by_cases same : u = w
  · rcases same
    rw [Function.update_self, before, after]
  · rw [Function.update_of_ne (Sum.inr_injective.ne same)]

/-- All that lies before the offset is handed out. -/
theorem Ledger.copy {w : Writer} {offset : Nat} {toWrite : UInt32} {i : Nat}
    (ledger : Ledger trace s i) (here : s.thread (.inr w) = .writer (.copy i offset toWrite))
    (undisturbed : Undisturbed s (.inr w)) :
    Ledger (trace ++ [(.inr w, .delivered i (s.shared.out.read (SchedStats.region i) toWrite.toNat))])
      ⟨s.shared, Function.update s.thread (.inr w) (.writer (.reset i offset toWrite))⟩ i := by
  rcases ledger with ⟨copies, pend, gone, completes, delivers, lies, outstanding⟩
  simp only [Undisturbed, here] at undisturbed
  rcases undisturbed with rfl | ⟨rfl, nobody⟩
  · -- nothing is copied
    refine ⟨copies ++ [[]], pend, gone, ?_, ?_, lies, outstanding.congr ?_⟩
    · rw [completedOn_concat, completes, List.flatten_append]
      simp [completedOn]
    · rw [deliveredOn_concat, delivers, List.map_append]
      simp [deliveredOn, ByteMemory.read, RecordFormat.encodeAll]
    · exact copiedBytes_update (by rw [here]; rfl) (by simp [copiedBytes])
  · have nothing : gone = [] := by
      rcases outstanding.owner with nothing | ⟨u, copied⟩
      · exact List.length_eq_zero_iff.mp nothing
      · exact List.length_eq_zero_iff.mp (copied.symm.trans (nobody u))
    rw [nothing, List.nil_append] at lies
    refine ⟨copies ++ [pend], [], s.shared.pending i, ?_, ?_, (List.append_nil _).symm, ?_⟩
    · rw [completedOn_concat, completes, List.flatten_append]
      simp [completedOn]
    · rw [deliveredOn_concat, delivers, List.map_append, List.map_singleton, ← lies]
      simp [deliveredOn, SchedStats.pending]
    · have mine : copiedBytes i (Function.update s.thread (.inr w)
          (.writer (.reset i offset (s.shared.offsets i))) (.inr w)) =
            (s.shared.pending i).length := by
        rw [Function.update_self, SchedStats.pending_length]
        exact if_pos rfl
      have others : forall u, u ≠ w -> copiedBytes i (Function.update s.thread (.inr w)
          (.writer (.reset i offset (s.shared.offsets i))) (.inr u)) = 0 := by
        intro u other
        rw [Function.update_of_ne (Sum.inr_injective.ne other)]
        exact nobody u
      refine ⟨Or.inr ⟨w, mine⟩, fun u => ?_, fun u u' some some' => ?_⟩
      · by_cases same : u = w
        · exact Or.inr (same ▸ mine)
        · exact Or.inl (others u same)
      · have same := not_imp_comm.mp (others u) some
        have same' := not_imp_comm.mp (others u') some'
        exact same.trans same'.symm

/-- The offset that has been read is reset. -/
theorem Ledger.reset {w : Writer} {offset : Nat} {toWrite : UInt32} {i : Nat}
    (ledger : Ledger trace s i) (here : s.thread (.inr w) = .writer (.reset i offset toWrite))
    (undisturbed : Undisturbed s (.inr w)) (pc' : WriterPc) (event : StatsEvent)
    (quiet : copiedBytes i (.writer pc') = 0 ∧
      completedOn i [((.inr w : Nat ⊕ Writer), event)] = [] ∧
      deliveredOn i [((.inr w : Nat ⊕ Writer), event)] = []) :
    Ledger (trace ++ [(.inr w, event)])
      ⟨s.shared.setOffset i 0, Function.update s.thread (.inr w) (.writer pc')⟩ i := by
  rcases quiet with ⟨after, completed, delivered⟩
  rcases ledger with ⟨copies, pend, gone, completes, delivers, lies, outstanding⟩
  simp only [Undisturbed, here] at undisturbed
  rcases undisturbed with ⟨_, rfl, _⟩
  have length := congrArg List.length lies
  rw [SchedStats.pending_length, List.length_append] at length
  have mine : copiedBytes i (s.thread (.inr w)) = (s.shared.offsets i).toNat := by
    rw [here]
    exact if_pos rfl
  have copied := outstanding.copied w
  rw [mine] at copied
  have empty : statsFormat.encodeAll pend = [] := List.length_eq_zero_iff.mp (by omega)
  have others : forall u, u ≠ w -> copiedBytes i (s.thread (.inr u)) = 0 := by
    intro u other
    by_contra some
    have all := outstanding.copied u
    exact other (outstanding.alone u w some (by omega))
  have none : forall u,
      copiedBytes i (Function.update s.thread (.inr w) (.writer pc') (.inr u)) = 0 := by
    intro u
    by_cases same : u = w
    · rw [same, Function.update_self, after]
    · rw [Function.update_of_ne (Sum.inr_injective.ne same)]
      exact others u same
  refine ⟨copies, pend, [], ?_, ?_, ?_, Or.inl rfl, fun u => Or.inl (none u), fun u _ some _ => ?_⟩
  · rw [completedOn_concat, completed, List.append_nil, completes]
  · rw [deliveredOn_concat, delivered, List.append_nil, delivers]
  · rw [empty]
    simp [SchedStats.pending, ByteMemory.read]
  · exact absurd (none u) some

theorem Inv.writer (inv : Inv trace s) {numCpus : Nat} {w : Writer} {pc pc' : WriterPc}
    {action : StatsAction} {event : StatsEvent} (here : s.thread (.inr w) = .writer pc)
    (undisturbed : Undisturbed s (.inr w))
    (stepped : writerStep numCpus action s.shared pc = some (shared', pc', event)) :
    Inv (trace ++ [(.inr w, event)])
      ⟨shared', Function.update s.thread (.inr w) (.writer pc')⟩ := by
  cases pc <;> cases action <;>
    simp only [writerStep, reduceCtorEq, Option.some.injEq, Prod.ext_iff] at stepped
  case idle.call =>
    rcases stepped with ⟨rfl, rfl, rfl⟩
    refine inv.writer_of_ledger rfl inv.inside (fun _ _ _ ok => ok) fun cpu ledger => ?_
    rcases nextCpu_quiet numCpus 0 0 cpu (.inr w) with ⟨after, completed, delivered⟩
    exact ledger.quiet completed delivered rfl
      (copiedBytes_update (by rw [here]; rfl) after)
  case read.run i offset =>
    simp only [Undisturbed, here] at undisturbed
    rcases stepped with ⟨rfl, rfl, rfl⟩
    rw [SchedStats.access_of_hasSlot undisturbed]
    refine inv.writer_of_ledger rfl inv.inside (fun _ _ _ ok => ok) fun cpu ledger => ?_
    exact ledger.quiet rfl rfl rfl
      (copiedBytes_update (by rw [here]; rfl) rfl)
  case copy.run i offset toWrite =>
    rcases stepped with ⟨rfl, rfl, rfl⟩
    refine inv.writer_of_ledger rfl inv.inside (fun _ _ _ ok => ok) fun cpu ledger => ?_
    by_cases same : cpu = i
    · rcases same
      exact ledger.copy here undisturbed
    · exact ledger.quiet rfl (by simp [deliveredOn, Ne.symm same]) rfl
        (copiedBytes_update (by rw [here]; rfl) (if_neg (Ne.symm same)))
  case reset.run i offset toWrite =>
    rcases stepped with ⟨rfl, rfl, rfl⟩
    have slot : SchedStats.HasSlot i := by
      simp only [Undisturbed, here] at undisturbed
      exact undisturbed.1
    refine inv.writer_of_ledger ?_ (fun cpu => ?_) (fun cpu pc there ok => ?_) fun cpu ledger => ?_
    · rw [SchedStats.setOffset, SchedStats.access_of_hasSlot slot]
    · by_cases same : cpu = i
      · rcases same
        rw [SchedStats.setOffset_offsets, Function.update_self]
        exact Nat.zero_le _
      · exact (elsewhere_setOffset s.shared i 0).offsets cpu same ▸ inv.inside cpu
    · by_cases same : cpu = i
      · rcases same
        simp only [Undisturbed, here] at undisturbed
        rcases undisturbed with ⟨_, rfl, zero | idle⟩
        · refine ok.congr rfl ?_ fun _ _ _ => rfl
          rw [SchedStats.setOffset_offsets, Function.update_self, zero]
        · rw [there] at idle
          exact recorderOk_of_not_underWay idle
      · exact (elsewhere_setOffset s.shared i 0).recorderOk same ok
    · have quiet := nextCpu_quiet numCpus (i + 1) (offset + toWrite.toNat) cpu (.inr w)
      by_cases same : cpu = i
      · rcases same
        exact ledger.reset here undisturbed _ _ quiet
      · rcases quiet with ⟨after, completed, delivered⟩
        exact ledger.quiet completed delivered
          ((elsewhere_setOffset s.shared i 0).pending same (inv.inside cpu))
          (copiedBytes_update (by rw [here]; exact if_neg (Ne.symm same)) after)

/-- As long as nobody interferes, every completed slice has been handed out once
or lies in the region of its CPU. -/
theorem exactlyOnce_of_undisturbed {numCpus : Nat}
    (run : (deliverySystem Writer numCpus).Run undisturbed trace s) : ExactlyOnce trace s := by
  have inv : Inv trace s := by
    refine run.invariant Inv (fun s initial => Inv.start initial) ?_
    rintro trace s ⟨t, event⟩ s' inv moved allowed
    rcases Program.system_next moved with ⟨action, shared', local', stepped, rfl⟩
    have step : (delivery Writer numCpus).step t action s.shared (s.thread t) =
        some (shared', local', event) := stepped
    have allowed' : Undisturbed s t := allowed
    simp only [delivery] at step
    split at step
    case h_1 cpu pc here =>
      split at step
      · rcases Option.map_eq_some_iff.mp step with ⟨⟨_, pc', _⟩, recorded, result⟩
        rcases result with ⟨⟩
        exact inv.recorder here allowed' recorded
      · cases step
    case h_2 w pc here =>
      rcases Option.map_eq_some_iff.mp step with ⟨⟨_, pc', _⟩, written, result⟩
      rcases result with ⟨⟩
      exact inv.writer here allowed' written
    case h_3 => cases step
  exact inv.exactlyOnce

end runs

/-! ## One CPU and one write-out -/

/-- What CPU 0 does to record a slice with one task. -/
def recording (ts : Timespec) (entry : TaskEntry) : List ((Nat ⊕ Unit) × StatsAction) :=
  [(.inl 0, .start), (.inl 0, .time ts), (.inl 0, .add entry), (.inl 0, .run), (.inl 0, .finish),
    (.inl 0, .run), (.inl 0, .run), (.inl 0, .run)]

def idleMachine : Machine (Nat ⊕ Unit) SchedStats StatsThread where
  shared := freshStats
  thread := Sum.elim (fun _ => .recorder .idle) fun _ => .writer .idle

def idleTask : TaskEntry := ⟨0, true, true, false, false, false, false⟩

/-- A slice, a write-out and another slice. -/
def inTurn : List ((Nat ⊕ Unit) × StatsAction) :=
  recording ⟨7, 1⟩ idleTask ++
    [(.inr (), .call), (.inr (), .run), (.inr (), .run), (.inr (), .run)] ++
    recording ⟨7, 2⟩ idleTask

theorem exactlyOnce_of_undisturbed_inTurn :
    ExactlyOnce ((delivery Unit 1).play inTurn idleMachine).2
      ((delivery Unit 1).play inTurn idleMachine).1 :=
  exactlyOnce_of_undisturbed
    (Program.run_play_decided ⟨rfl, rfl, fun _ => rfl, fun _ => rfl, fun _ => rfl⟩ inTurn
      (by decide))

/-- With nothing in the region everything has been handed out. -/
theorem ExactlyOnce.delivered {Writer : Type} {trace : List ((Nat ⊕ Writer) × StatsEvent)}
    {s : Machine (Nat ⊕ Writer) SchedStats StatsThread} (once : ExactlyOnce trace s) {cpu : Nat}
    (empty : s.shared.offsets cpu = 0) :
    (deliveredOn cpu trace).flatten = statsFormat.encodeAll (completedOn cpu trace) := by
  rcases once.2 cpu with ⟨copies, pending, copied, completed, delivered, offset, _⟩
  rw [empty] at offset
  have none : statsFormat.encodeAll pending = [] := by
    refine List.length_eq_zero_iff.mp ?_
    change 0 = _ at offset
    omega
  rw [completed, delivered, RecordFormat.encodeAll_append, none, List.append_nil,
    RecordFormat.encodeAll_flatten]

/-- CPU 0 completes its second slice while the write-out, which has looked the
offset up before, copies and resets. -/
def overtaken : List ((Nat ⊕ Unit) × StatsAction) :=
  recording ⟨7, 1⟩ idleTask ++ [(.inr (), .call), (.inr (), .run)] ++
    recording ⟨7, 2⟩ idleTask ++ [(.inr (), .run), (.inr (), .run)]

/-- The second slice is lost: it has been completed, is not handed out, and the region is empty. -/
theorem overtaken_loses :
    exists trace s, (deliverySystem Unit 1).Run TransitionSystem.unguarded trace s ∧
      ¬ExactlyOnce trace s := by
  refine ⟨_, _, Program.run_play (s := idleMachine)
    ⟨rfl, rfl, fun _ => rfl, fun _ => rfl, fun _ => rfl⟩ overtaken (by decide), fun once => ?_⟩
  have empty : ((delivery Unit 1).play overtaken idleMachine).1.shared.offsets 0 = 0 := by decide
  have all := congrArg List.length (once.delivered empty)
  revert all
  decide

end Delivery

end Stats
end Autolock
