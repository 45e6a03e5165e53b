import Autolock.Data.ByteMemory
import Mathlib.Logic.Function.Basic
import Mathlib.Data.UInt

namespace Autolock
namespace Stats

open Data

/-!
# How the kernel records what its scheduler does

Every CPU has a region of one buffer and an offset into it.  A slice is what one
call of the scheduler has seen: the time, the CPU and one word for every task
that could have been picked.  It is written behind the slices that are there
already, piece by piece, and the offset is advanced at the end.

The offsets are in an array of 128 words, of which every eighth is used.  So it
has room for sixteen CPUs; that an offset behind it has been accessed is
remembered, since nothing can be relied on any more.
-/

/-- `struct timespec64`, and the `struct timespec` of the user. -/
structure Timespec where
  sec : UInt64
  nsec : UInt64
  deriving DecidableEq, Repr

/-- A task with its entry in the run queue and what the scheduler sees of its autolock. -/
structure StatsTask where
  entity : Nat
  pid : UInt32
  /-- `__auto_lock_is_armed`, `usr_virt_page_start != 0` and `__auto_lock_dont_sched` -/
  autoLock : Option (Bool × Bool × Bool)
  deriving DecidableEq, Repr

/-- One task of a slice. -/
structure TaskEntry where
  pid : BitVec 26
  isPick : Bool
  isCurr : Bool
  alExists : Bool
  alArmed : Bool
  alHasPinned : Bool
  alDontSched : Bool
  deriving DecidableEq, Repr

/-- A recorded slice. -/
structure StatsEntry where
  ts : Timespec
  cpu : UInt32
  entries : List TaskEntry
  deriving DecidableEq, Repr

/-! ## `struct auto_lock_stats_entry` -/

def AUTO_LOCK_STATS_SIZE : Nat := 2 ^ 18
/-- The length of `__auto_lock_stats_out_offsets` -/
def OFFSETS_LENGTH : Nat := 16 * 8
/-- `sizeof(struct auto_lock_stats_entry)`: the time, `cpu` and `num_entries` -/
def entrySize : Nat := 24
/-- `sizeof(struct auto_lock_stats_task_entry)` -/
def taskEntrySize : Nat := 4

namespace TaskEntry

/-- The bit fields from the least significant one on. -/
def word (entry : TaskEntry) : Nat :=
  entry.pid.toNat + 2 ^ 26 * entry.isPick.toNat + 2 ^ 27 * entry.isCurr.toNat +
    2 ^ 28 * entry.alExists.toNat + 2 ^ 29 * entry.alArmed.toNat +
    2 ^ 30 * entry.alHasPinned.toNat + 2 ^ 31 * entry.alDontSched.toNat

def bytes (entry : TaskEntry) : List UInt8 :=
  ByteMemory.littleEndian 4 entry.word

/-- `this_entry`, as `auto_lock_stats_add` fills it. -/
def ofTask (tsk : StatsTask) (isPick isCurr : Bool) : TaskEntry where
  pid := tsk.pid.toBitVec.setWidth 26
  isPick := isPick
  isCurr := isCurr
  alExists := tsk.autoLock.isSome
  alArmed := tsk.autoLock.any fun view => view.1
  alHasPinned := tsk.autoLock.any fun view => view.2.1
  alDontSched := tsk.autoLock.any fun view => view.2.2

end TaskEntry

def Timespec.bytes (ts : Timespec) : List UInt8 :=
  ByteMemory.littleEndian 8 ts.sec.toNat ++ ByteMemory.littleEndian 8 ts.nsec.toNat

/-- `cpu` and `num_entries` -/
def countBytes (cpu : UInt32) (numEntries : Nat) : List UInt8 :=
  ByteMemory.littleEndian 4 cpu.toNat ++ ByteMemory.littleEndian 4 numEntries

def entriesBytes (entries : List TaskEntry) : List UInt8 :=
  entries.flatMap TaskEntry.bytes

def StatsEntry.bytes (entry : StatsEntry) : List UInt8 :=
  entry.ts.bytes ++ countBytes entry.cpu entry.entries.length ++ entriesBytes entry.entries

@[simp] theorem TaskEntry.bytes_length (entry : TaskEntry) :
    entry.bytes.length = taskEntrySize :=
  ByteMemory.littleEndian_length 4 _

@[simp] theorem Timespec.bytes_length (ts : Timespec) : ts.bytes.length = 16 := by
  simp [Timespec.bytes]

@[simp] theorem countBytes_length (cpu : UInt32) (numEntries : Nat) :
    (countBytes cpu numEntries).length = 8 := by
  simp [countBytes]

@[simp] theorem entriesBytes_length (entries : List TaskEntry) :
    (entriesBytes entries).length = taskEntrySize * entries.length := by
  induction entries with
  | nil => rfl
  | cons entry entries inductionHypothesis =>
      have whole : entriesBytes (entry :: entries) = entry.bytes ++ entriesBytes entries := rfl
      rw [whole, List.length_append, inductionHypothesis, TaskEntry.bytes_length, List.length_cons,
        Nat.mul_succ, Nat.add_comm]

theorem StatsEntry.bytes_length (entry : StatsEntry) :
    entry.bytes.length = entrySize + taskEntrySize * entry.entries.length := by
  simp only [StatsEntry.bytes, List.length_append, Timespec.bytes_length, countBytes_length,
    entriesBytes_length, entrySize]

/-! ## The buffer -/

/-- A store into the buffer on behalf of a CPU. -/
structure StatsWrite where
  cpu : Nat
  address : Nat
  length : Nat
  deriving DecidableEq, Repr

/-- Addresses are relative to `__auto_lock_stats_out`, which is `NULL` before the
set-up.  `written` records every store into the buffer, `overrun` whether an offset
outside the array has been accessed. -/
structure SchedStats where
  allocated : Bool
  out : ByteMemory
  /-- `__auto_lock_stats_out_offsets[cpu * 8]` -/
  offsets : Nat -> UInt32
  written : List StatsWrite
  overrun : Bool

namespace SchedStats

def region (cpu : Nat) : Nat := cpu * AUTO_LOCK_STATS_SIZE

def write (s : SchedStats) (cpu address : Nat) (bytes : List UInt8) : SchedStats :=
  { s with
    out := s.out.write address bytes
    written := s.written ++ [⟨cpu, address, bytes.length⟩] }

section write

variable (s : SchedStats) (cpu address : Nat) (bytes : List UInt8)

@[simp] theorem write_allocated : (s.write cpu address bytes).allocated = s.allocated := rfl
@[simp] theorem write_out : (s.write cpu address bytes).out = s.out.write address bytes := rfl
@[simp] theorem write_offsets : (s.write cpu address bytes).offsets = s.offsets := rfl

@[simp] theorem write_overrun : (s.write cpu address bytes).overrun = s.overrun := rfl

end write

/-- The offset of the CPU is in the array. -/
def HasSlot (cpu : Nat) : Prop := cpu * 8 < OFFSETS_LENGTH

instance (cpu : Nat) : Decidable (HasSlot cpu) :=
  inferInstanceAs (Decidable (_ < _))

theorem hasSlot_iff {cpu : Nat} : HasSlot cpu <-> cpu < 16 := by
  rw [HasSlot, OFFSETS_LENGTH]
  omega

/-- The offset of the CPU is read or written. -/
def access (s : SchedStats) (cpu : Nat) : SchedStats :=
  { s with overrun := s.overrun || !decide (HasSlot cpu) }

theorem access_of_hasSlot {cpu : Nat} (slot : HasSlot cpu) (s : SchedStats) : s.access cpu = s := by
  simp [access, slot]

/-- `__auto_lock_stats_cur_entry` -/
def curEntry (s : SchedStats) (cpu : Nat) : Option Nat :=
  if s.allocated = false then none
  else if AUTO_LOCK_STATS_SIZE - 4096 ≤ (s.offsets cpu).toNat then none
  else some (region cpu + (s.offsets cpu).toNat)

/-- What `__auto_lock_stats_cur_entry` accesses: no offset without a buffer. -/
def lookUp (s : SchedStats) (cpu : Nat) : SchedStats :=
  if s.allocated = false then s else s.access cpu

section lookUp

variable (s : SchedStats) (cpu : Nat)

@[simp] theorem lookUp_allocated : (s.lookUp cpu).allocated = s.allocated := by
  unfold lookUp
  split <;> rfl

@[simp] theorem lookUp_out : (s.lookUp cpu).out = s.out := by
  unfold lookUp
  split <;> rfl

@[simp] theorem lookUp_offsets : (s.lookUp cpu).offsets = s.offsets := by
  unfold lookUp
  split <;> rfl

@[simp] theorem lookUp_written : (s.lookUp cpu).written = s.written := by
  unfold lookUp
  split <;> rfl

@[simp] theorem lookUp_lookUp : (s.lookUp cpu).lookUp cpu = s.lookUp cpu := by
  cases allocated : s.allocated <;> simp [lookUp, access, allocated]

theorem lookUp_of_hasSlot (slot : HasSlot cpu) : s.lookUp cpu = s := by
  rw [lookUp, access_of_hasSlot slot, ite_self]

end lookUp

/-- `cur_entry->ts` is written, if there is an entry. -/
def writeTs (s : SchedStats) (cpu : Nat) (ts : Timespec) : Option Nat -> SchedStats
  | none => s
  | some cur => s.write cpu cur ts.bytes

/-- `cur_entry->entries[idx]` is written, if there is an entry. -/
def writeTask (s : SchedStats) (cpu : Nat) (entry : TaskEntry) (idx : UInt32) :
    Option Nat -> SchedStats
  | none => s
  | some cur => s.write cpu (cur + entrySize + taskEntrySize * idx.toNat) entry.bytes

/-- `cur_entry->cpu` and `cur_entry->num_entries` -/
def writeCount (s : SchedStats) (cpu : Nat) (endIdx : UInt32) (cur : Nat) : SchedStats :=
  s.write cpu (cur + 16) (countBytes (UInt32.ofNat cpu) endIdx.toNat)

/-- The offset behind an entry, in 32 bits. -/
def advanced (offset endIdx : UInt32) : UInt32 :=
  UInt32.ofNat (offset.toNat + entrySize + taskEntrySize * endIdx.toNat)

def setOffset (s : SchedStats) (cpu : Nat) (offset : UInt32) : SchedStats :=
  { s.access cpu with offsets := Function.update s.offsets cpu offset }

@[simp] theorem setOffset_allocated (s : SchedStats) (cpu : Nat) (offset : UInt32) :
    (s.setOffset cpu offset).allocated = s.allocated := rfl
@[simp] theorem setOffset_out (s : SchedStats) (cpu : Nat) (offset : UInt32) :
    (s.setOffset cpu offset).out = s.out := rfl
@[simp] theorem setOffset_offsets (s : SchedStats) (cpu : Nat) (offset : UInt32) :
    (s.setOffset cpu offset).offsets = Function.update s.offsets cpu offset := rfl

def autoLockStatsStart (s : SchedStats) (cpu : Nat) (ts : Timespec) : SchedStats :=
  (s.lookUp cpu).writeTs cpu ts (s.curEntry cpu)

def autoLockStatsAdd (s : SchedStats) (cpu : Nat) (tsk : StatsTask) (idx : UInt32)
    (isPick isCurr : Bool) : SchedStats :=
  (s.lookUp cpu).writeTask cpu (TaskEntry.ofTask tsk isPick isCurr) idx (s.curEntry cpu)

def autoLockStatsEnd (s : SchedStats) (cpu : Nat) (endIdx : UInt32) : SchedStats :=
  match s.curEntry cpu with
  | none => s.lookUp cpu
  | some cur =>
      ((s.lookUp cpu).writeCount cpu endIdx cur).setOffset cpu (advanced (s.offsets cpu) endIdx)

/-! ## `__add_autolock_stats` -/

/-- The variables of `__add_autolock_stats`. -/
structure SliceLoop where
  stats : SchedStats
  i : UInt32
  hasPick : Bool
  hasCurr : Bool

/-- Two pointers to entities are equal. -/
def same (se : StatsTask) (other : Option StatsTask) : Bool :=
  other.any fun tsk => tsk.entity == se.entity

/-- One round of the loop over the run queue. -/
def addQueued (cpu : Nat) (pick curr : Option StatsTask) (loop : SliceLoop) (first : StatsTask) :
    SliceLoop :=
  let isPick := same first pick
  let isCurr := same first curr
  { stats := loop.stats.autoLockStatsAdd cpu first loop.i isPick isCurr
    i := loop.i + 1
    hasPick := loop.hasPick || isPick
    hasCurr := loop.hasCurr || isCurr }

/-- The picked entity, if it has not been in the queue. -/
def addPick (cpu : Nat) (pick curr : Option StatsTask) (loop : SliceLoop) : SliceLoop :=
  match pick, loop.hasPick with
  | some pick, false =>
      let isCurr := same pick curr
      { loop with
        stats := loop.stats.autoLockStatsAdd cpu pick loop.i true isCurr
        i := loop.i + 1
        hasCurr := loop.hasCurr || isCurr }
  | _, _ => loop

/-- The current entity, if it has been neither in the queue nor picked. -/
def addCurr (cpu : Nat) (pick curr : Option StatsTask) (loop : SliceLoop) : SliceLoop :=
  match curr, loop.hasCurr with
  | some curr, false =>
      { loop with
        stats := loop.stats.autoLockStatsAdd cpu curr loop.i (same curr pick) true
        i := loop.i + 1 }
  | _, _ => loop

/-- `__add_autolock_stats`; `first` is the run queue from its leftmost entity on. -/
def addAutolockStats (s : SchedStats) (cpu : Nat) (ts : Timespec) (first : List StatsTask)
    (pick curr : Option StatsTask) : SchedStats :=
  if first = [] ∧ pick = none then s
  else
    let queued := first.foldl (addQueued cpu pick curr)
      ⟨s.autoLockStatsStart cpu ts, 0, false, false⟩
    let loop := addCurr cpu pick curr (addPick cpu pick curr queued)
    loop.stats.autoLockStatsEnd cpu loop.i

/-! ## A slice as a list of tasks -/

/-- The tasks that a call of `__add_autolock_stats` adds, in their order. -/
def sliceEntries (first : List StatsTask) (pick curr : Option StatsTask) : List TaskEntry :=
  if first = [] ∧ pick = none then []
  else
    let hasPick := first.any fun se => same se pick
    let picked := if hasPick then [] else pick.toList
    let hasCurr := (first ++ picked).any fun se => same se curr
    (first.map fun se => TaskEntry.ofTask se (same se pick) (same se curr)) ++
      (picked.map fun se => TaskEntry.ofTask se true (same se curr)) ++
      if hasCurr then [] else curr.toList.map fun se => TaskEntry.ofTask se (same se pick) true

/-- The tasks of a slice from an index on. -/
def addEntries (cpu : Nat) (s : SchedStats) (idx : UInt32) : List TaskEntry -> SchedStats
  | [] => s
  | entry :: entries =>
      addEntries cpu ((s.lookUp cpu).writeTask cpu entry idx (s.curEntry cpu)) (idx + 1) entries

/-- Record a slice with the given tasks. -/
def recordSlice (s : SchedStats) (cpu : Nat) (ts : Timespec) (entries : List TaskEntry) :
    SchedStats :=
  if entries = [] then s
  else
    (addEntries cpu (s.autoLockStatsStart cpu ts) 0 entries).autoLockStatsEnd cpu
      (UInt32.ofNat entries.length)

theorem addEntries_append (cpu : Nat) (s : SchedStats) (idx : UInt32)
    (entries more : List TaskEntry) :
    addEntries cpu s idx (entries ++ more) =
      addEntries cpu (addEntries cpu s idx entries) (idx + UInt32.ofNat entries.length) more := by
  induction entries generalizing s idx with
  | nil => simp [addEntries]
  | cons entry entries inductionHypothesis =>
      rw [List.cons_append, addEntries, addEntries, inductionHypothesis, List.length_cons,
        UInt32.ofNat_add]
      congr 1
      rw [UInt32.add_assoc, UInt32.add_comm 1]
      rfl

/-- The loop over the run queue adds its tasks and remembers whom it has seen. -/
theorem foldl_addQueued (cpu : Nat) (pick curr : Option StatsTask) (loop : SliceLoop)
    (first : List StatsTask) :
    first.foldl (addQueued cpu pick curr) loop =
      { stats := addEntries cpu loop.stats loop.i
          (first.map fun se => TaskEntry.ofTask se (same se pick) (same se curr))
        i := loop.i + UInt32.ofNat first.length
        hasPick := loop.hasPick || first.any fun se => same se pick
        hasCurr := loop.hasCurr || first.any fun se => same se curr } := by
  induction first generalizing loop with
  | nil => simp [addEntries]
  | cons se first inductionHypothesis =>
      rw [List.foldl_cons, inductionHypothesis]
      simp only [addQueued, autoLockStatsAdd, List.map_cons, addEntries, List.length_cons,
        List.any_cons, Bool.or_assoc, UInt32.ofNat_add, UInt32.add_assoc]
      congr 2
      exact UInt32.add_comm _ _

/-- The loop with further tasks added. -/
def SliceLoop.add (loop : SliceLoop) (cpu : Nat) (entries : List TaskEntry) : SliceLoop :=
  { loop with
    stats := addEntries cpu loop.stats loop.i entries
    i := loop.i + UInt32.ofNat entries.length }

theorem addPick_eq (cpu : Nat) (pick curr : Option StatsTask) (loop : SliceLoop) :
    let picked := if loop.hasPick then [] else pick.toList
    addPick cpu pick curr loop =
      { loop.add cpu (picked.map fun se => TaskEntry.ofTask se true (same se curr)) with
        hasCurr := loop.hasCurr || picked.any fun se => same se curr } := by
  rcases loop with ⟨stats, i, hasPick, hasCurr⟩
  cases pick <;> cases hasPick <;>
    simp [addPick, SliceLoop.add, addEntries, autoLockStatsAdd]

theorem addCurr_eq (cpu : Nat) (pick curr : Option StatsTask) (loop : SliceLoop) :
    addCurr cpu pick curr loop =
      loop.add cpu (if loop.hasCurr then []
        else curr.toList.map fun se => TaskEntry.ofTask se (same se pick) true) := by
  rcases loop with ⟨stats, i, hasPick, hasCurr⟩
  cases curr <;> cases hasCurr <;>
    simp [addCurr, SliceLoop.add, addEntries, autoLockStatsAdd]

/-- A call that does not return at once adds a task. -/
theorem sliceEntries_ne_nil {first : List StatsTask} {pick : Option StatsTask}
    (some : ¬(first = [] ∧ pick = none)) (curr : Option StatsTask) :
    sliceEntries first pick curr ≠ [] := by
  rw [sliceEntries, if_neg some]
  intro empty
  simp only [List.append_eq_nil_iff, List.map_eq_nil_iff] at empty
  rcases empty with ⟨⟨rfl, picked⟩, _⟩
  refine some ⟨rfl, ?_⟩
  simpa using picked

/-- A call of `__add_autolock_stats` records a slice with its tasks. -/
theorem addAutolockStats_eq (s : SchedStats) (cpu : Nat) (ts : Timespec) (first : List StatsTask)
    (pick curr : Option StatsTask) :
    s.addAutolockStats cpu ts first pick curr =
      s.recordSlice cpu ts (sliceEntries first pick curr) := by
  by_cases nothing : first = [] ∧ pick = none
  · rw [addAutolockStats, if_pos nothing, sliceEntries, if_pos nothing, recordSlice, if_pos rfl]
  · rw [addAutolockStats, if_neg nothing, recordSlice,
      if_neg (sliceEntries_ne_nil nothing curr), sliceEntries, if_neg nothing]
    simp only [foldl_addQueued, addPick_eq, addCurr_eq, SliceLoop.add, Bool.false_or,
      UInt32.zero_add, List.any_append, addEntries_append, List.length_append, List.length_map,
      UInt32.ofNat_add, UInt32.add_assoc]

end SchedStats

end Stats
end Autolock
