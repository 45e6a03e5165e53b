import Autolock.Stats.Writeout

namespace Autolock
namespace Stats

open Data

/-!
# Every CPU writes into its own region

A slice is started only if less than the last page of the region has been used.
That leaves room for the header and for a thousand tasks; nobody counts them.
The stores of a slice stay in the region exactly if the entry with all its
tasks ends there, so one long run queue is enough to reach the next CPU's
region, or what lies behind the buffer.
-/

/-- All bytes of the store are in the region of its CPU. -/
def StatsWrite.InRegion (w : StatsWrite) : Prop :=
  SchedStats.region w.cpu ≤ w.address ∧
    w.address + w.length ≤ SchedStats.region w.cpu + AUTO_LOCK_STATS_SIZE

instance (w : StatsWrite) : Decidable w.InRegion :=
  inferInstanceAs (Decidable (_ ∧ _))

namespace SchedStats

variable {s : SchedStats} {cpu cur : Nat}

/-! ## What the stores of a slice leave alone -/

/-- Stores into the buffer do not move the entry that they belong to. -/
structure Unmoved (s s' : SchedStats) : Prop where
  allocated : s'.allocated = s.allocated
  offsets : s'.offsets = s.offsets

theorem Unmoved.curEntry {s' : SchedStats} (unmoved : s.Unmoved s') (cpu : Nat) :
    s'.curEntry cpu = s.curEntry cpu := by
  rw [SchedStats.curEntry, SchedStats.curEntry, unmoved.allocated, unmoved.offsets]

theorem unmoved_lookUp (s : SchedStats) (cpu : Nat) : s.Unmoved (s.lookUp cpu) :=
  ⟨lookUp_allocated s cpu, lookUp_offsets s cpu⟩

theorem unmoved_writeTs (ts : Timespec) (entry : Option Nat) :
    s.Unmoved ((s.lookUp cpu).writeTs cpu ts entry) := by
  cases entry <;> exact ⟨lookUp_allocated s cpu, lookUp_offsets s cpu⟩

theorem unmoved_writeTask (task : TaskEntry) (idx : UInt32) (entry : Option Nat) :
    s.Unmoved ((s.lookUp cpu).writeTask cpu task idx entry) := by
  cases entry <;> exact ⟨lookUp_allocated s cpu, lookUp_offsets s cpu⟩

theorem unmoved_addEntries (s : SchedStats) (cpu : Nat) (idx : UInt32) (entries : List TaskEntry) :
    s.Unmoved (addEntries cpu s idx entries) := by
  induction entries generalizing s idx with
  | nil => exact ⟨rfl, rfl⟩
  | cons entry entries inductionHypothesis =>
      have first : s.Unmoved ((s.lookUp cpu).writeTask cpu entry idx (s.curEntry cpu)) :=
        unmoved_writeTask entry idx _
      have rest := inductionHypothesis ((s.lookUp cpu).writeTask cpu entry idx (s.curEntry cpu))
        (idx + 1)
      exact ⟨rest.allocated.trans first.allocated, rest.offsets.trans first.offsets⟩

/-! ## The stores of one slice -/

/-- All stores so far are in their regions. -/
def AllInRegion (s : SchedStats) : Prop :=
  forall w, w ∈ s.written -> w.InRegion

/-- Nothing is recorded, or the entry with its tasks ends inside the region. -/
def Fits (s : SchedStats) (cpu numEntries : Nat) : Prop :=
  (s.curEntry cpu).isSome = true ->
    (s.offsets cpu).toNat + entrySize + taskEntrySize * numEntries ≤ AUTO_LOCK_STATS_SIZE

instance (s : SchedStats) (cpu numEntries : Nat) : Decidable (s.Fits cpu numEntries) :=
  inferInstanceAs (Decidable (_ -> _))

theorem allInRegion_write {address : Nat} {bytes : List UInt8} :
    (s.write cpu address bytes).AllInRegion <->
      s.AllInRegion ∧ StatsWrite.InRegion ⟨cpu, address, bytes.length⟩ := by
  simp only [AllInRegion, write, List.mem_append, List.mem_singleton, or_imp, forall_and,
    forall_eq]

theorem allInRegion_lookUp : (s.lookUp cpu).AllInRegion <-> s.AllInRegion := by
  rw [AllInRegion, AllInRegion, lookUp_written]

/-- An entry starts inside its region, with more than a page behind it. -/
theorem curEntry_eq_some (entry : s.curEntry cpu = some cur) :
    cur = region cpu + (s.offsets cpu).toNat ∧
      (s.offsets cpu).toNat < AUTO_LOCK_STATS_SIZE - 4096 := by
  unfold curEntry at entry
  split at entry
  · cases entry
  · split at entry <;> cases entry
    next room => exact ⟨rfl, Nat.not_le.mp room⟩

theorem allInRegion_addEntries (entry : s.curEntry cpu = some cur) (idx : UInt32)
    (entries : List TaskEntry) :
    (addEntries cpu s idx entries).AllInRegion <->
      s.AllInRegion ∧ forall k, k < entries.length -> StatsWrite.InRegion
        ⟨cpu, cur + entrySize + taskEntrySize * (idx + UInt32.ofNat k).toNat, taskEntrySize⟩ := by
  induction entries generalizing s idx with
  | nil => simp [addEntries]
  | cons task entries inductionHypothesis =>
      have moved : ((s.lookUp cpu).writeTask cpu task idx (some cur)).curEntry cpu = some cur :=
        ((unmoved_writeTask task idx (some cur)).curEntry cpu).trans entry
      rw [addEntries, entry, inductionHypothesis moved, writeTask, allInRegion_write,
        allInRegion_lookUp, TaskEntry.bytes_length, and_assoc]
      refine and_congr_right fun _ => ?_
      -- the first task, and the tasks behind it
      rw [List.length_cons, Nat.forall_lt_succ_left']
      have next : forall k, idx + 1 + UInt32.ofNat k = idx + UInt32.ofNat (k + 1) := by
        intro k
        rw [UInt32.ofNat_add, UInt32.add_assoc, UInt32.add_comm 1]
        rfl
      have first : idx + UInt32.ofNat 0 = idx := UInt32.add_zero idx
      simp only [next, first]

/-- The tasks of an entry that starts in the region are in the region exactly if the entry is. -/
theorem tasks_inRegion_iff {offset numEntries : Nat} (room : offset < AUTO_LOCK_STATS_SIZE - 4096) :
    (forall k, k < numEntries -> StatsWrite.InRegion ⟨cpu, region cpu + offset + entrySize +
        taskEntrySize * (UInt32.ofNat k).toNat, taskEntrySize⟩) <->
      offset + entrySize + taskEntrySize * numEntries ≤ AUTO_LOCK_STATS_SIZE := by
  simp only [StatsWrite.InRegion, AUTO_LOCK_STATS_SIZE, entrySize, taskEntrySize] at room ⊢
  have words : UInt32.size = 2 ^ 32 := rfl
  constructor
  · intro inside
    by_contra outside
    -- either the last task or, if their number wraps, the first one that is far outside
    have at_k := inside (min (numEntries - 1) (2 ^ 18)) (by omega)
    rw [UInt32.toNat_ofNat_of_lt' (by omega)] at at_k
    omega
  · intro fits k less
    rw [UInt32.toNat_ofNat_of_lt' (by omega)]
    omega

/-- Nothing is recorded where there is no room for a new entry. -/
theorem recordSlice_of_none (full : s.curEntry cpu = none) (ts : Timespec)
    (entries : List TaskEntry) :
    s.recordSlice cpu ts entries = if entries = [] then s else s.lookUp cpu := by
  have full' : (s.lookUp cpu).curEntry cpu = none := ((unmoved_lookUp s cpu).curEntry cpu).trans full
  have idle : forall idx, addEntries cpu (s.lookUp cpu) idx entries = s.lookUp cpu := by
    induction entries with
    | nil => exact fun _ => rfl
    | cons entry entries inductionHypothesis =>
        intro idx
        rw [addEntries, full', writeTask, lookUp_lookUp, inductionHypothesis]
  unfold recordSlice
  split
  · rfl
  · simp only [autoLockStatsStart, full, writeTs, idle, autoLockStatsEnd, full', lookUp_lookUp]

theorem recordSlice_allocated (s : SchedStats) (cpu : Nat) (ts : Timespec)
    (entries : List TaskEntry) : (s.recordSlice cpu ts entries).allocated = s.allocated := by
  have started : s.Unmoved (s.autoLockStatsStart cpu ts) := unmoved_writeTs ts _
  have added := unmoved_addEntries (s.autoLockStatsStart cpu ts) cpu 0 entries
  unfold recordSlice
  split
  · rfl
  · rw [← started.allocated, ← added.allocated, autoLockStatsEnd]
    split
    · exact lookUp_allocated _ _
    · exact lookUp_allocated _ _

/-- The stores of a slice are in the region exactly if its entry fits. -/
theorem allInRegion_recordSlice (ts : Timespec) (entries : List TaskEntry) :
    (s.recordSlice cpu ts entries).AllInRegion <->
      s.AllInRegion ∧ s.Fits cpu entries.length := by
  cases entry : s.curEntry cpu with
  | none =>
      have nothing : (s.recordSlice cpu ts entries).AllInRegion <-> s.AllInRegion := by
        rw [recordSlice_of_none entry]
        split
        · rfl
        · exact allInRegion_lookUp
      exact nothing.trans (and_iff_left fun there => absurd (entry ▸ there) (by decide)).symm
  | some cur =>
      rcases curEntry_eq_some entry with ⟨rfl, room⟩
      have fits_iff : s.Fits cpu entries.length <->
          (s.offsets cpu).toNat + entrySize + taskEntrySize * entries.length ≤
            AUTO_LOCK_STATS_SIZE := by
        rw [Fits, entry]
        exact forall_prop_of_true rfl
      rw [fits_iff]
      by_cases empty : entries = []
      · subst empty
        simp only [recordSlice, if_true, List.length_nil]
        refine (and_iff_left ?_).symm
        simp only [AUTO_LOCK_STATS_SIZE, entrySize] at room ⊢
        omega
      · have start : s.autoLockStatsStart cpu ts =
            (s.lookUp cpu).write cpu (region cpu + (s.offsets cpu).toNat) ts.bytes := by
          rw [autoLockStatsStart, entry, writeTs]
        have entry' : (s.autoLockStatsStart cpu ts).curEntry cpu = _ :=
          ((unmoved_writeTs ts _).curEntry cpu).trans entry
        have entry'' := ((unmoved_addEntries _ cpu 0 entries).curEntry cpu).trans entry'
        have header : StatsWrite.InRegion ⟨cpu, region cpu + (s.offsets cpu).toNat, 16⟩ ∧
            StatsWrite.InRegion ⟨cpu, region cpu + (s.offsets cpu).toNat + 16, 8⟩ := by
          simp only [StatsWrite.InRegion, AUTO_LOCK_STATS_SIZE] at room ⊢
          omega
        have ended : forall s' : SchedStats, forall offset,
            (s'.setOffset cpu offset).AllInRegion <-> s'.AllInRegion := fun _ _ => Iff.rfl
        rw [recordSlice, if_neg empty, autoLockStatsEnd, entry'']
        simp only [ended, writeCount]
        rw [allInRegion_write, countBytes_length, allInRegion_lookUp, allInRegion_addEntries entry',
          start, allInRegion_write, allInRegion_lookUp, Timespec.bytes_length]
        simp only [UInt32.zero_add, header, and_true]
        exact and_congr_right fun _ => tasks_inRegion_iff room

end SchedStats

/-! ## Runs -/

/-- One call of `__add_autolock_stats`, with its CPU and its time. -/
structure SliceCall where
  cpu : Nat
  ts : Timespec
  first : List StatsTask
  pick : Option StatsTask
  curr : Option StatsTask

def SliceCall.entries (call : SliceCall) : List TaskEntry :=
  SchedStats.sliceEntries call.first call.pick call.curr

/-- A scheduler records a slice, or somebody makes the system call. -/
inductive StatsOp where
  | slice (call : SliceCall)
  | syscall (numCpus : Nat) (buf : Option Nat) (memory : Bool) (user : ByteMemory)
      (copied : Nat -> Nat)

namespace SchedStats

def apply (s : SchedStats) : StatsOp -> SchedStats
  | .slice call => s.addAutolockStats call.cpu call.ts call.first call.pick call.curr
  | .syscall numCpus buf memory user copied =>
      (s.autoLockStats numCpus buf memory user copied).stats

def run (s : SchedStats) (ops : List StatsOp) : SchedStats :=
  ops.foldl apply s

/-- If the step records a slice, its entry ends inside the region. -/
def StepFits (s : SchedStats) : StatsOp -> Prop
  | .slice call => s.Fits call.cpu call.entries.length
  | .syscall .. => True

instance (s : SchedStats) (op : StatsOp) : Decidable (s.StepFits op) := by
  cases op <;> unfold StepFits <;> infer_instance

/-- Every step fits in the state in which it is taken. -/
def AllFit (s : SchedStats) : List StatsOp -> Prop
  | [] => True
  | op :: ops => s.StepFits op ∧ (s.apply op).AllFit ops

theorem setup_written (s : SchedStats) (cpus : List Nat) :
    (cpus.foldl (fun s cpu => s.setOffset cpu 0) s).written = s.written := by
  induction cpus generalizing s with
  | nil => rfl
  | cons cpu cpus inductionHypothesis =>
      rw [List.foldl_cons, inductionHypothesis]
      rfl

theorem round_written (kbuf : Nat) (copied : Nat -> Nat) (w : Writeout) (cpus : List Nat) :
    (cpus.foldl (Writeout.round kbuf copied) w).stats.written = w.stats.written := by
  induction cpus generalizing w with
  | nil => rfl
  | cons cpu cpus inductionHypothesis =>
      rw [List.foldl_cons, inductionHypothesis]
      simp only [Writeout.round]
      split <;> rfl

/-- The system call does not store anything into the regions. -/
theorem autoLockStats_written (s : SchedStats) (numCpus : Nat) (buf : Option Nat) (memory : Bool)
    (user : ByteMemory) (copied : Nat -> Nat) :
    (s.autoLockStats numCpus buf memory user copied).stats.written = s.written := by
  cases buf with
  | none =>
      simp only [autoLockStats, autoLockStatsSetup]
      split
      · exact setup_written _ _
      · split <;> exact setup_written _ _
  | some kbuf =>
      simp only [autoLockStats, autoLockStatsWriteout]
      split
      · rfl
      · exact round_written kbuf copied _ _

theorem allInRegion_apply (s : SchedStats) (op : StatsOp) :
    (s.apply op).AllInRegion <-> s.AllInRegion ∧ s.StepFits op := by
  cases op with
  | slice call =>
      rw [apply, addAutolockStats_eq]
      exact allInRegion_recordSlice call.ts _
  | syscall numCpus buf memory user copied =>
      rw [apply, AllInRegion, autoLockStats_written]
      exact (and_iff_left trivial).symm

/-- In every run the stores stay in the regions of their CPUs exactly if every
slice that finds room for its header also finds room for its tasks. -/
theorem allInRegion_run_iff (s : SchedStats) (ops : List StatsOp) :
    (s.run ops).AllInRegion <-> s.AllInRegion ∧ s.AllFit ops := by
  induction ops generalizing s with
  | nil => exact (and_iff_left trivial).symm
  | cons op ops inductionHypothesis =>
      rw [run, List.foldl_cons, ← run, inductionHypothesis, allInRegion_apply, AllFit, and_assoc]

end SchedStats

/-- The buffer after the set-up call. -/
def freshStats : SchedStats where
  allocated := true
  out := fun _ => 0
  offsets := fun _ => 0
  written := []
  overrun := false

/-- A run queue of tasks without an autolock, on the first CPU. -/
def queueOf (tasks : Nat) : SliceCall :=
  ⟨0, ⟨0, 0⟩, List.replicate tasks ⟨0, 1, none⟩, none, none⟩

theorem queueOf_entries (tasks : Nat) : (queueOf (tasks + 1)).entries.length = tasks + 1 := by
  simp [SliceCall.entries, queueOf, SchedStats.sliceEntries]

/-- With 65531 tasks in the run queue the last one is written into the region of the next CPU. -/
theorem allInRegion_run_fails : ¬(freshStats.run [.slice (queueOf 65531)]).AllInRegion := by
  rw [SchedStats.run, List.foldl_cons, List.foldl_nil, SchedStats.allInRegion_apply,
    SchedStats.StepFits, queueOf_entries]
  rintro ⟨_, fits⟩
  have outside : AUTO_LOCK_STATS_SIZE <
      (freshStats.offsets 0).toNat + entrySize + taskEntrySize * (65530 + 1) := by
    simp only [AUTO_LOCK_STATS_SIZE, entrySize, taskEntrySize, freshStats]
    decide
  exact absurd (fits rfl) (Nat.not_le.mpr outside)

end Stats
end Autolock
