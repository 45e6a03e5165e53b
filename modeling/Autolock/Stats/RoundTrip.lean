import Autolock.Stats.ParseStats
import Autolock.Stats.SliceBytes

namespace Autolock
namespace Stats

open Data

/-!
# What has been recorded is what is parsed

Between two write-outs every CPU has the encoded slices of its log in its
region.  A write-out puts the regions behind each other, so the user's loop
walks through the logs of all CPUs, in the order of the CPUs.  That needs an offset
for every CPU, and there are sixteen.
-/

/-- There are tasks, and their number fits into `num_entries`. -/
def StatsEntry.Counted (entry : StatsEntry) : Prop :=
  entry.entries ≠ [] ∧ entry.entries.length < 2 ^ 32

/-- Each CPU has recorded the slices of its log, and nothing reaches beyond its region. -/
structure Logged (s : SchedStats) (log : Nat -> List StatsEntry) : Prop where
  allocated : s.allocated = true
  pending : forall cpu, s.pending cpu = statsFormat.encodeAll (log cpu)
  inside : forall cpu, (s.offsets cpu).toNat ≤ AUTO_LOCK_STATS_SIZE
  counted : forall cpu entry, entry ∈ log cpu -> entry.Counted

namespace SchedStats

/-- The regions lie behind each other. -/
theorem region_add_le {cpu cpu' : Nat} (less : cpu < cpu') :
    region cpu + AUTO_LOCK_STATS_SIZE ≤ region cpu' := by
  rw [region, region, ← Nat.succ_mul]
  exact Nat.mul_le_mul_right _ less

theorem pending_eq_iff {s : SchedStats} {cpu : Nat} {bytes : List UInt8} :
    s.pending cpu = bytes <->
      (s.offsets cpu).toNat = bytes.length ∧ s.out.Holds (region cpu) bytes := by
  constructor
  · rintro rfl
    rw [pending_length]
    exact ⟨rfl, ByteMemory.holds_read _ _ _⟩
  · rintro ⟨length, holds⟩
    rw [pending, length]
    exact holds

variable {s s' : SchedStats} {cpu : Nat} {entry : StatsEntry}

/-- An entry that ends inside its region is appended to the pending bytes of its CPU. -/
theorem Appended.pending (appended : s.Appended s' cpu entry)
    (ends : (s.offsets cpu).toNat + entry.bytes.length ≤ AUTO_LOCK_STATS_SIZE) :
    s'.pending cpu = s.pending cpu ++ entry.bytes := by
  rw [pending_eq_iff, appended.offsets, Function.update_self, List.length_append, pending_length,
    ByteMemory.holds_append, pending_length]
  have small : AUTO_LOCK_STATS_SIZE < UInt32.size := by decide
  refine ⟨UInt32.toNat_ofNat_of_lt' (Nat.lt_of_le_of_lt ends small), ?_, appended.holds⟩
  refine (ByteMemory.holds_read s.out _ _).congr fun a _ below => appended.frame a (Or.inl ?_)
  rwa [ByteMemory.read_length] at below

/-- The pending bytes of the other CPUs stay as they are. -/
theorem Appended.pending_of_ne (appended : s.Appended s' cpu entry)
    (ends : (s.offsets cpu).toNat + entry.bytes.length ≤ AUTO_LOCK_STATS_SIZE) {cpu' : Nat}
    (inside : (s.offsets cpu').toNat ≤ AUTO_LOCK_STATS_SIZE) (different : cpu' ≠ cpu) :
    s'.pending cpu' = s.pending cpu' := by
  rw [pending_eq_iff, appended.offsets, Function.update_of_ne different, pending_length]
  refine ⟨rfl, (ByteMemory.holds_read s.out _ _).congr fun a above below => appended.frame a ?_⟩
  rw [ByteMemory.read_length] at below
  rcases Nat.lt_or_gt_of_ne different with less | more
  · have := region_add_le less
    omega
  · have := region_add_le more
    omega

theorem Appended.logged (appended : s.Appended s' cpu entry) {log : Nat -> List StatsEntry}
    (logged : Logged s log)
    (ends : (s.offsets cpu).toNat + entry.bytes.length ≤ AUTO_LOCK_STATS_SIZE)
    (counted : entry.Counted) :
    Logged s' (Function.update log cpu (log cpu ++ [entry])) where
  allocated := appended.allocated.trans logged.allocated
  pending := by
    rw [Function.forall_update_iff log
      fun cpu' entries => s'.pending cpu' = statsFormat.encodeAll entries]
    refine ⟨?_, fun cpu' different => ?_⟩
    · rw [appended.pending ends, logged.pending, RecordFormat.encodeAll_append,
        RecordFormat.encodeAll_singleton]
      rfl
    · rw [appended.pending_of_ne ends (logged.inside cpu') different, logged.pending]
  inside := by
    have small : AUTO_LOCK_STATS_SIZE < UInt32.size := by decide
    rw [appended.offsets, Function.forall_update_iff s.offsets
      fun _ offset => offset.toNat ≤ AUTO_LOCK_STATS_SIZE]
    refine ⟨?_, fun cpu' _ => logged.inside cpu'⟩
    rwa [UInt32.toNat_ofNat_of_lt' (Nat.lt_of_le_of_lt ends small)]
  counted := by
    rw [Function.forall_update_iff log
      fun _ entries => forall entry, entry ∈ entries -> entry.Counted]
    refine ⟨fun other member => ?_, fun cpu' _ => logged.counted cpu'⟩
    rcases List.mem_append.mp member with earlier | last
    · exact logged.counted cpu other earlier
    · rwa [List.mem_singleton.mp last]

end SchedStats

/-! ## Runs of the schedulers -/

/-- The entry that a call records. -/
def SliceCall.entry (call : SliceCall) : StatsEntry :=
  ⟨call.ts, UInt32.ofNat call.cpu, call.entries⟩

namespace SchedStats

/-- The call has a task to record and finds room for the header. -/
def Records (s : SchedStats) (call : SliceCall) : Prop :=
  (s.curEntry call.cpu).isSome = true ∧ call.entries ≠ []

instance (s : SchedStats) (call : SliceCall) : Decidable (s.Records call) :=
  inferInstanceAs (Decidable (_ ∧ _))

/-- The calls that record their slices. -/
def recordedCalls (s : SchedStats) : List SliceCall -> List SliceCall
  | [] => []
  | call :: calls =>
      (if s.Records call then [call] else []) ++ (s.apply (.slice call)).recordedCalls calls

/-- The slices that one CPU records, in their order. -/
def recordedOn (s : SchedStats) (calls : List SliceCall) (cpu : Nat) : List StatsEntry :=
  ((s.recordedCalls calls).filter fun call => call.cpu = cpu).map SliceCall.entry

theorem recordSlice_nil (s : SchedStats) (cpu : Nat) (ts : Timespec) :
    s.recordSlice cpu ts [] = s := by
  rw [recordSlice, if_pos rfl]

theorem apply_of_not_records {s : SchedStats} {call : SliceCall} (slot : HasSlot call.cpu)
    (idle : ¬s.Records call) : s.apply (.slice call) = s := by
  rw [apply, addAutolockStats_eq]
  by_cases empty : call.entries = []
  · rw [SliceCall.entries] at empty
    rw [empty, recordSlice_nil]
  · have full : s.curEntry call.cpu = none := by
      rw [← Option.not_isSome_iff_eq_none]
      exact fun there => idle ⟨there, empty⟩
    rw [recordSlice_of_none full, lookUp_of_hasSlot s _ slot, ite_self]

theorem apply_of_records {s : SchedStats} {call : SliceCall} (records : s.Records call)
    (fits : s.StepFits (.slice call)) :
    s.Appended (s.apply (.slice call)) call.cpu call.entry ∧ call.entry.Counted ∧
      (s.offsets call.cpu).toNat + call.entry.bytes.length ≤ AUTO_LOCK_STATS_SIZE := by
  rcases records with ⟨there, nonempty⟩
  have ends := fits there
  rcases Option.isSome_iff_exists.mp there with ⟨cur, entry⟩
  rw [apply, addAutolockStats_eq]
  refine ⟨recordSlice_appended entry fits nonempty, ⟨nonempty, ?_⟩, ?_⟩
  · simp only [AUTO_LOCK_STATS_SIZE, entrySize, taskEntrySize] at ends
    simp only [SliceCall.entry]
    omega
  · rw [StatsEntry.bytes_length, ← Nat.add_assoc]
    exact ends

end SchedStats

/-- A call adds its slice to the log of its CPU if it records anything. -/
theorem Logged.slice {s : SchedStats} {log : Nat -> List StatsEntry} {call : SliceCall}
    (logged : Logged s log) (slot : SchedStats.HasSlot call.cpu) (fits : s.StepFits (.slice call)) :
    Logged (s.apply (.slice call)) fun cpu => log cpu ++
      if s.Records call ∧ call.cpu = cpu then [call.entry] else [] := by
  by_cases records : s.Records call
  · rcases SchedStats.apply_of_records records fits with ⟨appended, counted, ends⟩
    have after := appended.logged logged ends counted
    convert after using 2 with cpu
    by_cases here : cpu = call.cpu
    · subst here
      simp [records]
    · simp [records, here, Ne.symm here]
  · rw [SchedStats.apply_of_not_records slot records]
    simpa [records] using logged

/-- The calls of a run add what they record to the logs. -/
theorem Logged.run {s : SchedStats} {log : Nat -> List StatsEntry} (logged : Logged s log)
    {calls : List SliceCall} (slots : forall call, call ∈ calls -> SchedStats.HasSlot call.cpu)
    (fit : s.AllFit (calls.map .slice)) :
    Logged (s.run (calls.map .slice)) fun cpu => log cpu ++ s.recordedOn calls cpu := by
  induction calls generalizing s log with
  | nil => simpa [SchedStats.run, SchedStats.recordedOn, SchedStats.recordedCalls] using logged
  | cons call calls inductionHypothesis =>
      rw [List.map_cons, SchedStats.AllFit] at fit
      rw [List.forall_mem_cons] at slots
      have rest := inductionHypothesis (logged.slice slots.1 fit.1) slots.2 fit.2
      rw [List.map_cons, SchedStats.run, List.foldl_cons, ← SchedStats.run]
      convert rest using 2 with cpu
      rw [List.append_assoc]
      congr 1
      by_cases records : s.Records call
      · by_cases here : call.cpu = cpu <;>
          simp [SchedStats.recordedOn, SchedStats.recordedCalls, records, here]
      · simp [SchedStats.recordedOn, SchedStats.recordedCalls, records]

/-! ## The round trip -/

/-- The slices of the first CPUs, in the order of the CPUs. -/
def SchedStats.recordedByCpu (s : SchedStats) (calls : List SliceCall) (numCpus : Nat) :
    List StatsEntry :=
  (List.range numCpus).flatMap (s.recordedOn calls)

theorem Logged.pendingAll {s : SchedStats} {log : Nat -> List StatsEntry} (logged : Logged s log)
    (numCpus : Nat) :
    s.pendingAll numCpus = statsFormat.encodeAll ((List.range numCpus).flatMap log) := by
  have pending : s.pending = fun cpu => statsFormat.encodeAll (log cpu) := funext logged.pending
  rw [SchedStats.pendingAll, pending, RecordFormat.encodeAll, List.flatMap_assoc]
  rfl

theorem SchedStats.pendingAll_length_le {s : SchedStats}
    (inside : forall cpu, (s.offsets cpu).toNat ≤ AUTO_LOCK_STATS_SIZE) (numCpus : Nat) :
    (s.pendingAll numCpus).length ≤ AUTO_LOCK_STATS_SIZE * numCpus := by
  induction numCpus with
  | zero => exact Nat.zero_le _
  | succ numCpus inductionHypothesis =>
      have last := inside numCpus
      rw [pendingAll_succ, List.length_append, pending_length, Nat.mul_succ]
      omega

/-- The entries fit into the array that the user has allocated for them. -/
theorem length_le_autolockGetMaxEntries {entries : List StatsEntry} {numCpus : Nat}
    (counted : forall entry, entry ∈ entries -> entry.Counted)
    (fits : (statsFormat.encodeAll entries).length ≤ AUTO_LOCK_STATS_SIZE * numCpus) :
    entries.length ≤ autolockGetMaxEntries numCpus := by
  have least : forall entry, entry ∈ entries -> 28 ≤ (statsFormat.encode entry).length := by
    intro entry member
    have some := List.length_pos_of_ne_nil (counted entry member).1
    have length : (statsFormat.encode entry).length = _ := entry.bytes_length
    simp only [entrySize, taskEntrySize] at length
    omega
  have many := RecordFormat.length_le_of_encode_le least
  simp only [AUTO_LOCK_STATS_SIZE] at fits
  rw [autolockGetMaxEntries, autolockGetBufSize, Nat.le_div_iff_mul_le (by decide)]
  omega

/-- The calls of CPUs that have their offsets in the array stay within it. -/
theorem SchedStats.run_overrun (s : SchedStats) {calls : List SliceCall}
    (slots : forall call, call ∈ calls -> HasSlot call.cpu) :
    (s.run (calls.map .slice)).overrun = s.overrun := by
  induction calls generalizing s with
  | nil => rfl
  | cons call calls inductionHypothesis =>
      rw [List.forall_mem_cons] at slots
      rw [List.map_cons, run, List.foldl_cons, ← run, inductionHypothesis _ slots.2, apply,
        addAutolockStats_eq, recordSlice_overrun slots.1]

theorem SchedStats.run_allocated (s : SchedStats) (calls : List SliceCall) :
    (s.run (calls.map .slice)).allocated = s.allocated := by
  induction calls generalizing s with
  | nil => rfl
  | cons call calls inductionHypothesis =>
      rw [List.map_cons, run, List.foldl_cons, ← run, inductionHypothesis, apply,
        addAutolockStats_eq, recordSlice_allocated]

/-- A write-out accesses the offsets of all CPUs, and there are sixteen of them. -/
theorem SchedStats.autoLockStats_overrun {s : SchedStats} (allocated : s.allocated = true)
    (numCpus buf : Nat) (memory : Bool) (user : ByteMemory) (copied : Nat -> Nat) :
    (s.autoLockStats numCpus (some buf) memory user copied).stats.overrun =
      (s.overrun || decide (16 < numCpus)) := by
  simp only [autoLockStats, autoLockStatsWriteout, allocated, Bool.true_eq_false, if_false]
  exact Writeout.overrun_foldl buf copied ⟨s, user, 0, 0, []⟩ numCpus

/-- The write-out `w` hands out what has been recorded, and the user reads it as it
was recorded: all bytes are used up, the entries do not outgrow their array, and
nothing behind the offsets has been taken for one. -/
structure RoundTrips (recorded : List StatsEntry) (numCpus buf : Nat) (w : Writeout) : Prop where
  inBounds : w.stats.overrun = false
  parsed : exists bytes starts, w.ret = Int.ofNat bytes ∧ bytes ≤ autolockGetBufSize numCpus ∧
    autolockParseStats w.user buf bytes [] = some starts ∧
    starts.map (readEntry w.user) = recorded ∧
    (starts.map (entryGetSize w.user)).sum = bytes ∧
    starts.length ≤ autolockGetMaxEntries numCpus

/-- What the schedulers record after a write-out is handed out by the next one. -/
theorem parsed_of_logged {s : SchedStats} {log : Nat -> List StatsEntry} (logged : Logged s log)
    {numCpus : Nat} {copied : Nat -> Nat} (enough : s.Copied numCpus copied) (buf : Nat)
    (memory : Bool) (user : ByteMemory) :
    let w := s.autoLockStats numCpus (some buf) memory user copied
    exists bytes starts, w.ret = Int.ofNat bytes ∧ bytes ≤ autolockGetBufSize numCpus ∧
      autolockParseStats w.user buf bytes [] = some starts ∧
      starts.map (readEntry w.user) = (List.range numCpus).flatMap log ∧
      (starts.map (entryGetSize w.user)).sum = bytes ∧
      starts.length ≤ autolockGetMaxEntries numCpus := by
  have delivered := Writeout.delivered_foldl _ buf user enough
  have bytes := logged.pendingAll numCpus
  have small := SchedStats.pendingAll_length_le logged.inside numCpus
  have counted : forall entry, entry ∈ (List.range numCpus).flatMap log -> entry.Counted := by
    intro entry member
    rcases List.mem_flatMap.mp member with ⟨cpu, _, onCpu⟩
    exact logged.counted cpu entry onCpu
  have holds := delivered.holds
  rw [bytes] at holds small
  have valid : forall entry, entry ∈ (List.range numCpus).flatMap log -> statsFormat.Valid entry :=
    fun entry member => (counted entry member).2
  have walked := RecordFormat.walk_starts valid holds
  have read := RecordFormat.map_readAt_starts valid holds
  simp only [SchedStats.autoLockStats, SchedStats.autoLockStatsWriteout, logged.allocated,
    Bool.true_eq_false, if_false]
  refine ⟨_, _, rfl, ?_, ?_, read, ?_, ?_⟩
  · rw [delivered.offset, bytes, autolockGetBufSize]
    refine small.trans (Nat.mul_le_mul_right _ ?_)
    decide
  · rw [delivered.offset, bytes, autolockParseStats_eq]
    exact congrArg (Option.map _) walked
  · rw [delivered.offset, bytes]
    exact RecordFormat.walk_consumes walked
  · rw [RecordFormat.starts_length]
    exact length_le_autolockGetMaxEntries counted small

/-- Whatever the schedulers of the CPUs record after a write-out, the next write-out
hands out as it was recorded exactly if there are at most sixteen CPUs. -/
theorem autolockParseStats_writeout_iff {s : SchedStats} (allocated : s.allocated = true)
    (fine : s.overrun = false) (empty : forall cpu, s.offsets cpu = 0) {numCpus : Nat}
    {calls : List SliceCall} (online : forall call, call ∈ calls -> call.cpu < numCpus)
    (fit : s.AllFit (calls.map .slice)) {copied : Nat -> Nat}
    (enough : (s.run (calls.map .slice)).Copied numCpus copied) (buf : Nat) (memory : Bool)
    (user : ByteMemory) :
    RoundTrips (s.recordedByCpu calls numCpus) numCpus buf
        ((s.run (calls.map .slice)).autoLockStats numCpus (some buf) memory user copied) <->
      numCpus ≤ 16 := by
  have overrun := SchedStats.autoLockStats_overrun
    ((SchedStats.run_allocated s calls).trans allocated) numCpus buf memory user copied
  constructor
  · intro trips
    have inBounds := overrun.symm.trans trips.inBounds
    rw [Bool.or_eq_false_iff, decide_eq_false_iff_not, Nat.not_lt] at inBounds
    exact inBounds.2
  · intro few
    have slots : forall call, call ∈ calls -> SchedStats.HasSlot call.cpu := fun call member =>
      SchedStats.hasSlot_iff.mpr ((online call member).trans_le few)
    have nothing : Logged s fun _ => [] :=
      { allocated := allocated
        pending := by simp [SchedStats.pending, empty, ByteMemory.read]
        inside := by simp [empty]
        counted := nofun }
    have logged := nothing.run slots fit
    simp only [List.nil_append] at logged
    refine ⟨?_, parsed_of_logged logged enough buf memory user⟩
    rw [overrun, SchedStats.run_overrun s slots, fine, decide_eq_false (Nat.not_lt.mpr few)]
    rfl

/-- Two CPUs; the first records twice, and its second slice has two tasks. -/
def threeSlices : List SliceCall :=
  [⟨0, ⟨7, 1⟩, [⟨0, 41, none⟩], none, none⟩,
    ⟨1, ⟨7, 2⟩, [], some ⟨1, 42, some (true, true, false)⟩, none⟩,
    ⟨0, ⟨7, 3⟩, [⟨0, 41, none⟩, ⟨2, 43, some (true, false, true)⟩], none, none⟩]

theorem autolockParseStats_writeout_threeSlices :
    RoundTrips (freshStats.recordedByCpu threeSlices 2) 2 0
      ((freshStats.run (threeSlices.map .slice)).autoLockStats 2 (some 0) true (fun _ => 0)
        fun _ => 2 ^ 32) := by
  have fit : freshStats.AllFit (threeSlices.map .slice) :=
    ⟨by decide, by decide, by decide, trivial⟩
  exact (autolockParseStats_writeout_iff rfl rfl (fun _ => rfl) (by decide) fit
    (fun cpu _ => (UInt32.toNat_lt _).le) 0 true fun _ => 0).mpr (by decide)

/-- The last of seventeen CPUs has its offset behind the array. -/
theorem seventeenth_overruns :
    let calls : List SliceCall := [⟨16, ⟨7, 1⟩, [⟨0, 41, none⟩], none, none⟩]
    ¬RoundTrips (freshStats.recordedByCpu calls 17) 17 0
      ((freshStats.run (calls.map .slice)).autoLockStats 17 (some 0) true (fun _ => 0)
        fun _ => 2 ^ 32) := by
  intro calls trips
  have overrun := SchedStats.autoLockStats_overrun (SchedStats.run_allocated freshStats calls) 17 0
    true (fun _ => 0) fun _ => 2 ^ 32
  have inBounds := overrun.symm.trans trips.inBounds
  rw [Bool.or_eq_false_iff] at inBounds
  exact absurd inBounds.2 (by decide)

end Stats
end Autolock
