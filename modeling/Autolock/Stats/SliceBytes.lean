import Autolock.Stats.RegionBounds

namespace Autolock
namespace Stats

open Data

/-!
# The bytes of a slice

A slice is complete when its time, its tasks and at last its count are in place.
As long as its entry fits, a slice that is recorded appends its bytes to those
of its CPU and leaves those of the other CPUs alone.
-/

/-- The time and the first tasks of a slice are in place. -/
structure InPlace (mem : ByteMemory) (cur : Nat) (ts : Timespec) (entries : List TaskEntry) :
    Prop where
  time : mem.Holds cur ts.bytes
  tasks : mem.Holds (cur + entrySize) (entriesBytes entries)

namespace InPlace

variable {mem mem' : ByteMemory} {cur : Nat} {ts : Timespec} {entries : List TaskEntry}

theorem start (mem : ByteMemory) (cur : Nat) (ts : Timespec) :
    InPlace (mem.write cur ts.bytes) cur ts [] :=
  ⟨ByteMemory.holds_write, rfl⟩

theorem add (here : InPlace mem cur ts entries) (entry : TaskEntry) :
    InPlace (mem.write (cur + entrySize + taskEntrySize * entries.length) entry.bytes) cur ts
      (entries ++ [entry]) where
  time := by
    refine here.time.write (Or.inl ?_)
    rw [Timespec.bytes_length, entrySize]
    omega
  tasks := by
    have last : entriesBytes (entries ++ [entry]) = entriesBytes entries ++ entry.bytes := by
      simp [entriesBytes]
    rw [last, ByteMemory.holds_append, entriesBytes_length]
    refine ⟨here.tasks.write (Or.inl ?_), ByteMemory.holds_write⟩
    rw [entriesBytes_length]

/-- With the count the slice is complete. -/
theorem finish (here : InPlace mem cur ts entries) (cpu : UInt32) :
    (mem.write (cur + 16) (countBytes cpu entries.length)).Holds cur
      (StatsEntry.bytes ⟨ts, cpu, entries⟩) := by
  simp only [StatsEntry.bytes, ByteMemory.holds_append, List.length_append,
    Timespec.bytes_length, countBytes_length]
  refine ⟨⟨here.time.write (Or.inl ?_), ByteMemory.holds_write⟩, here.tasks.write (Or.inr ?_)⟩
  · rw [Timespec.bytes_length]
  · rw [countBytes_length, entrySize]

/-- What lies outside the entry does not matter. -/
theorem congr (here : InPlace mem cur ts entries)
    (same : forall a, cur ≤ a -> a < cur + entrySize + taskEntrySize * entries.length ->
      mem' a = mem a) : InPlace mem' cur ts entries where
  time := by
    refine here.time.congr fun a above below => same a above ?_
    rw [Timespec.bytes_length] at below
    simp only [entrySize]
    omega
  tasks := by
    refine here.tasks.congr fun a above below => same a (by omega) ?_
    rwa [entriesBytes_length] at below

end InPlace

namespace SchedStats

variable {s : SchedStats} {cpu cur : Nat} {ts : Timespec} {entries : List TaskEntry}

/-- The tasks are added behind those that are in place, and nothing else is changed. -/
theorem addEntries_inPlace (entry : s.curEntry cpu = some cur) (here : InPlace s.out cur ts entries)
    (more : List TaskEntry) (few : entries.length + more.length < 2 ^ 32) :
    InPlace (addEntries cpu s (UInt32.ofNat entries.length) more).out cur ts (entries ++ more) ∧
      forall a, a < cur + entrySize ∨
          cur + entrySize + taskEntrySize * (entries.length + more.length) ≤ a ->
        (addEntries cpu s (UInt32.ofNat entries.length) more).out a = s.out a := by
  induction more generalizing s entries with
  | nil => exact ⟨by rwa [List.append_nil], fun _ _ => rfl⟩
  | cons task more inductionHypothesis =>
      have idx : (UInt32.ofNat entries.length).toNat = entries.length :=
        UInt32.toNat_ofNat_of_lt' (Nat.lt_of_le_of_lt (Nat.le_add_right _ _) few)
      have next : UInt32.ofNat entries.length + 1 = UInt32.ofNat (entries ++ [task]).length := by
        rw [List.length_append, List.length_singleton, UInt32.ofNat_add]
        rfl
      rw [addEntries, entry, next]
      have moved : ((s.lookUp cpu).writeTask cpu task (UInt32.ofNat entries.length)
          (some cur)).curEntry cpu = some cur :=
        ((unmoved_writeTask task _ _).curEntry cpu).trans entry
      have placed : InPlace ((s.lookUp cpu).writeTask cpu task (UInt32.ofNat entries.length)
          (some cur)).out cur ts (entries ++ [task]) := by
        rw [writeTask, idx, write_out, lookUp_out]
        exact here.add task
      have length : (entries ++ [task]).length + more.length =
          entries.length + (task :: more).length := by
        simp only [List.length_append, List.length_cons, List.length_nil]
        omega
      rcases inductionHypothesis moved placed (by rwa [length]) with ⟨all, frame⟩
      rw [length] at frame
      refine ⟨by rwa [List.append_assoc] at all, fun a outside => ?_⟩
      rw [frame a outside, writeTask, idx, write_out, lookUp_out]
      rw [List.length_cons, Nat.mul_add, Nat.mul_succ] at outside
      refine ByteMemory.write_of_outside ?_
      rw [TaskEntry.bytes_length]
      omega

/-- The bytes of an entry have been put where the offset was, and nowhere else. -/
structure Appended (s s' : SchedStats) (cpu : Nat) (entry : StatsEntry) : Prop where
  holds : s'.out.Holds (region cpu + (s.offsets cpu).toNat) entry.bytes
  frame : forall a, a < region cpu + (s.offsets cpu).toNat ∨
      region cpu + (s.offsets cpu).toNat + entry.bytes.length ≤ a -> s'.out a = s.out a
  offsets : s'.offsets = Function.update s.offsets cpu
    (UInt32.ofNat ((s.offsets cpu).toNat + entry.bytes.length))
  allocated : s'.allocated = s.allocated

/-- A slice whose entry fits appends its entry. -/
theorem recordSlice_appended (entry : s.curEntry cpu = some cur) (fits : s.Fits cpu entries.length)
    (nonempty : entries ≠ []) :
    s.Appended (s.recordSlice cpu ts entries) cpu ⟨ts, UInt32.ofNat cpu, entries⟩ := by
  have ends := fits (by rw [entry]; rfl)
  rcases curEntry_eq_some entry with ⟨rfl, room⟩
  have few : entries.length < 2 ^ 32 := by
    simp only [AUTO_LOCK_STATS_SIZE, entrySize, taskEntrySize] at ends
    omega
  have count : (UInt32.ofNat entries.length).toNat = entries.length :=
    UInt32.toNat_ofNat_of_lt' few
  have start : s.autoLockStatsStart cpu ts =
      (s.lookUp cpu).write cpu (region cpu + (s.offsets cpu).toNat) ts.bytes := by
    rw [autoLockStatsStart, entry, writeTs]
  have entry' : (s.autoLockStatsStart cpu ts).curEntry cpu =
      some (region cpu + (s.offsets cpu).toNat) :=
    ((unmoved_writeTs ts _).curEntry cpu).trans entry
  have unmoved := unmoved_addEntries (s.autoLockStatsStart cpu ts) cpu 0 entries
  have started : InPlace (s.autoLockStatsStart cpu ts).out (region cpu + (s.offsets cpu).toNat)
      ts [] := by
    rw [start, write_out, lookUp_out]
    exact .start _ _ _
  have added := addEntries_inPlace entry' started entries (by simpa using few)
  have first : UInt32.ofNat ([] : List TaskEntry).length = 0 := rfl
  rw [first, List.nil_append, List.length_nil, Nat.zero_add] at added
  rcases added with ⟨placed, frame⟩
  have offset : (addEntries cpu (s.autoLockStatsStart cpu ts) 0 entries).offsets = s.offsets := by
    rw [unmoved.offsets, start, write_offsets, lookUp_offsets]
  rw [recordSlice, if_neg nonempty, autoLockStatsEnd, (unmoved.curEntry cpu).trans entry']
  simp only [writeCount, count, offset]
  exact
    { holds := by
        rw [setOffset_out, write_out, lookUp_out]
        exact placed.finish _
      frame := by
        intro a outside
        rw [StatsEntry.bytes_length] at outside
        simp only [entrySize] at outside frame
        have count : a < region cpu + (s.offsets cpu).toNat + 16 ∨
            region cpu + (s.offsets cpu).toNat + 16 + 8 ≤ a := by omega
        have time : a < region cpu + (s.offsets cpu).toNat ∨
            region cpu + (s.offsets cpu).toNat + 16 ≤ a := by omega
        rw [setOffset_out, write_out, lookUp_out,
          ByteMemory.write_of_outside (by simpa using count), frame a (by omega), start, write_out,
          lookUp_out, ByteMemory.write_of_outside (by simpa using time)]
      offsets := by
        rw [setOffset_offsets, write_offsets, lookUp_offsets, offset, advanced, count,
          StatsEntry.bytes_length, Nat.add_assoc]
      allocated := by
        rw [setOffset_allocated, write_allocated, lookUp_allocated, unmoved.allocated, start,
          write_allocated, lookUp_allocated] }

/-- Recording on a CPU that has its offset in the array stays within it. -/
theorem recordSlice_overrun (slot : HasSlot cpu) (s : SchedStats) (ts : Timespec)
    (entries : List TaskEntry) : (s.recordSlice cpu ts entries).overrun = s.overrun := by
  have added : forall (s : SchedStats) idx, (addEntries cpu s idx entries).overrun = s.overrun := by
    induction entries with
    | nil => exact fun _ _ => rfl
    | cons entry entries inductionHypothesis =>
        intro s idx
        rw [addEntries, inductionHypothesis, lookUp_of_hasSlot s cpu slot]
        cases s.curEntry cpu <;> rfl
  have started : (s.autoLockStatsStart cpu ts).overrun = s.overrun := by
    rw [autoLockStatsStart, lookUp_of_hasSlot s cpu slot]
    cases s.curEntry cpu <;> rfl
  unfold recordSlice
  split
  · rfl
  · rw [← started, ← added (s.autoLockStatsStart cpu ts) 0]
    generalize addEntries cpu (s.autoLockStatsStart cpu ts) 0 entries = s'
    rw [autoLockStatsEnd, lookUp_of_hasSlot s' cpu slot]
    split
    · rfl
    · rw [setOffset, access_of_hasSlot slot]
      rfl

end SchedStats

end Stats
end Autolock
