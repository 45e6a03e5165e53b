import Autolock.Concurrency.Threads
import Autolock.Stats.ParseStats
import Autolock.Stats.SliceBytes
import Mathlib.Data.Fintype.Basic

namespace Autolock
namespace Stats

open Concurrency Data

/-!
# Schedulers and write-outs at the same time

Each CPU records its slices one after the other; any number of threads make the
system call.  Nothing keeps them apart: a function of the recorder looks the
offset up and then writes where it was, the end of a slice reads the offset and
stores it advanced, and a write-out reads the offset, copies and resets.  Each
of these is a step of its own.  The copies of a write-out succeed.  There may be
more CPUs than the array of the offsets has room for.
-/

/-- Where the scheduler of a CPU is.  The time and the tasks are those of the
slice that it is recording, `cur` is what `__auto_lock_stats_cur_entry` returned. -/
inductive RecorderPc where
  | idle
  | stamp (cur : Option Nat)
  | slice (ts : Timespec) (entries : List TaskEntry)
  | add (ts : Timespec) (entries : List TaskEntry) (entry : TaskEntry) (cur : Option Nat)
  | count (ts : Timespec) (entries : List TaskEntry) (cur : Option Nat)
  | load (ts : Timespec) (entries : List TaskEntry)
  | store (ts : Timespec) (entries : List TaskEntry) (offset : UInt32)
  deriving DecidableEq, Repr

/-- Where a write-out is, with its variables `i`, `offset` and `to_write`. -/
inductive WriterPc where
  | idle
  | read (i offset : Nat)
  | copy (i offset : Nat) (toWrite : UInt32)
  | reset (i offset : Nat) (toWrite : UInt32)
  deriving DecidableEq, Repr

inductive StatsThread where
  | recorder (pc : RecorderPc)
  | writer (pc : WriterPc)
  deriving DecidableEq, Repr

/-- What the scheduler does next, with the time and the tasks that it sees. -/
inductive StatsAction where
  | start
  | time (ts : Timespec)
  | add (entry : TaskEntry)
  | finish
  | call
  | run
  deriving DecidableEq, Repr

inductive StatsEvent where
  | internal
  | completed (cpu : Nat) (entry : StatsEntry)
  | delivered (cpu : Nat) (bytes : List UInt8)
  | returned (ret : Nat)
  deriving DecidableEq, Repr

namespace Delivery

/-- `__add_autolock_stats` on one CPU. -/
def recorderStep (cpu : Nat) (action : StatsAction) (s : SchedStats) (pc : RecorderPc) :
    Option (SchedStats × RecorderPc × StatsEvent) :=
  match pc, action with
  | .idle, .start => some (s.lookUp cpu, .stamp (s.curEntry cpu), .internal)
  | .stamp cur, .time ts => some (s.writeTs cpu ts cur, .slice ts [], .internal)
  | .slice ts entries, .add entry =>
      some (s.lookUp cpu, .add ts entries entry (s.curEntry cpu), .internal)
  -- there has been a task
  | .slice ts (entry :: entries), .finish =>
      some (s.lookUp cpu, .count ts (entry :: entries) (s.curEntry cpu), .internal)
  | .add ts entries entry cur, .run =>
      some (s.writeTask cpu entry (UInt32.ofNat entries.length) cur,
        .slice ts (entries ++ [entry]), .internal)
  | .count _ _ none, .run => some (s, .idle, .internal)
  | .count ts entries (some cur), .run =>
      some (s.writeCount cpu (UInt32.ofNat entries.length) cur, .load ts entries, .internal)
  | .load ts entries, .run =>
      some (s.access cpu, .store ts entries (s.offsets cpu), .internal)
  | .store ts entries offset, .run =>
      some (s.setOffset cpu (SchedStats.advanced offset (UInt32.ofNat entries.length)), .idle,
        .completed cpu ⟨ts, UInt32.ofNat cpu, entries⟩)
  | _, _ => none

/-- The head of the loop over the CPUs; behind the last one the call returns. -/
def nextCpu (numCpus i offset : Nat) : WriterPc × StatsEvent :=
  if i < numCpus then (.read i offset, .internal) else (.idle, .returned offset)

/-- `__auto_lock_stats_writeout` -/
def writerStep (numCpus : Nat) (action : StatsAction) (s : SchedStats) (pc : WriterPc) :
    Option (SchedStats × WriterPc × StatsEvent) :=
  match pc, action with
  | .idle, .call => some (s, nextCpu numCpus 0 0)
  | .read i offset, .run => some (s.access i, .copy i offset (s.offsets i), .internal)
  | .copy i offset toWrite, .run =>
      some (s, .reset i offset toWrite,
        .delivered i (s.out.read (SchedStats.region i) toWrite.toNat))
  | .reset i offset toWrite, .run =>
      some (s.setOffset i 0, nextCpu numCpus (i + 1) (offset + toWrite.toNat))
  | _, _ => none

end Delivery

/-- The schedulers of all CPUs and the threads that make the system call. -/
def delivery (Writer : Type) (numCpus : Nat) :
    Program (Nat ⊕ Writer) SchedStats StatsThread StatsAction StatsEvent where
  step := fun t action s l =>
    match t, l with
    | .inl cpu, .recorder pc =>
        if cpu < numCpus then
          (Delivery.recorderStep cpu action s pc).map fun result =>
            (result.1, .recorder result.2.1, result.2.2)
        else none
    | .inr _, .writer pc =>
        (Delivery.writerStep numCpus action s pc).map fun result =>
          (result.1, .writer result.2.1, result.2.2)
    | _, _ => none

/-- The buffer has been set up, and nobody has begun. -/
def nothingRecorded {Writer : Type} (s : Machine (Nat ⊕ Writer) SchedStats StatsThread) : Prop :=
  s.shared.allocated = true ∧ s.shared.overrun = false ∧ (forall cpu, s.shared.offsets cpu = 0) ∧
    (forall cpu, s.thread (.inl cpu) = .recorder .idle) ∧
    forall w, s.thread (.inr w) = .writer .idle

abbrev deliverySystem (Writer : Type) [DecidableEq Writer] (numCpus : Nat) :
    TransitionSystem (Machine (Nat ⊕ Writer) SchedStats StatsThread)
      ((Nat ⊕ Writer) × StatsEvent) :=
  (delivery Writer numCpus).system nothingRecorded

namespace Delivery

variable {Writer : Type}

/-! ## What has been recorded and what has been handed out -/

def completedOn (cpu : Nat) (trace : List ((Nat ⊕ Writer) × StatsEvent)) : List StatsEntry :=
  trace.filterMap fun label =>
    match label.2 with
    | .completed cpu' entry => if cpu' = cpu then some entry else none
    | _ => none

def deliveredOn (cpu : Nat) (trace : List ((Nat ⊕ Writer) × StatsEvent)) : List (List UInt8) :=
  trace.filterMap fun label =>
    match label.2 with
    | .delivered cpu' bytes => if cpu' = cpu then some bytes else none
    | _ => none

/-- How many bytes of the CPU the write-out has copied and is about to reset. -/
def copiedBytes (cpu : Nat) : StatsThread -> Nat
  | .writer (.reset i _ toWrite) => if i = cpu then toWrite.toNat else 0
  | _ => 0

/-- Nothing but offsets has been taken for one, and what a CPU has completed is what
has been handed out, copy by copy and slice by slice, and what lies in its region
behind the bytes already copied. -/
def ExactlyOnce (trace : List ((Nat ⊕ Writer) × StatsEvent))
    (s : Machine (Nat ⊕ Writer) SchedStats StatsThread) : Prop :=
  s.shared.overrun = false ∧ forall cpu, exists (copies : List (List StatsEntry)) (pending : List StatsEntry) (copied : Nat),
    completedOn cpu trace = copies.flatten ++ pending ∧
      deliveredOn cpu trace = copies.map statsFormat.encodeAll ∧
      (s.shared.offsets cpu).toNat = copied + (statsFormat.encodeAll pending).length ∧
      s.shared.out.Holds (SchedStats.region cpu + copied) (statsFormat.encodeAll pending) ∧
      (copied = 0 ∨ exists w, copiedBytes cpu (s.thread (.inr w)) = copied)

/-- A slice is being recorded, and not only counted to be thrown away. -/
def UnderWay : StatsThread -> Prop
  | .recorder .idle | .recorder (.count _ _ none) | .writer _ => False
  | .recorder _ => True

instance (l : StatsThread) : Decidable (UnderWay l) := by
  unfold UnderWay
  split <;> infer_instance

/-- The schedulers and the write-outs do not get in each other's way.  A
write-out copies what lies before the offset and nobody else has copied, and the
offset that it resets is the one that it has read; it resets none under a slice
that is being recorded, unless it is 0.  No entry grows out of its region, and the
CPUs have their offsets in the array. -/
def Undisturbed (s : Machine (Nat ⊕ Writer) SchedStats StatsThread) (t : Nat ⊕ Writer) : Prop :=
  match t, s.thread t with
  | .inl cpu, .recorder (.add _ entries _ _) =>
      SchedStats.HasSlot cpu ∧ s.shared.Fits cpu (entries.length + 1)
  | .inl cpu, _ => SchedStats.HasSlot cpu
  | .inr _, .writer (.read i _) => SchedStats.HasSlot i
  | .inr _, .writer (.copy i _ toWrite) =>
      toWrite = 0 ∨
        toWrite = s.shared.offsets i ∧ forall w, copiedBytes i (s.thread (.inr w)) = 0
  | .inr _, .writer (.reset i _ toWrite) => SchedStats.HasSlot i ∧
      toWrite = s.shared.offsets i ∧ (toWrite = 0 ∨ ¬UnderWay (s.thread (.inl i)))
  | _, _ => True

instance [Fintype Writer] (s : Machine (Nat ⊕ Writer) SchedStats StatsThread) (t : Nat ⊕ Writer) :
    Decidable (Undisturbed s t) := by
  unfold Undisturbed
  split <;> infer_instance

/-- The guard of the runs in which every step is undisturbed. -/
def undisturbed : TransitionSystem.Guard (Machine (Nat ⊕ Writer) SchedStats StatsThread)
    ((Nat ⊕ Writer) × StatsEvent) :=
  fun _ s label _ => Undisturbed s label.1

/-! ## One of them alone -/

section alone

variable (numCpus cpu : Nat) (ts : Timespec)

section recorder

variable (online : cpu < numCpus)

include online

/-- A step of the recorder is one of the program. -/
theorem step_recorder {action : StatsAction} {s s' : SchedStats} {pc pc' : RecorderPc}
    {event : StatsEvent} (stepped : recorderStep cpu action s pc = some (s', pc', event)) :
    (delivery Writer numCpus).step (.inl cpu) action s (.recorder pc) =
      some (s', .recorder pc', event) := by
  simp only [delivery, if_pos online, stepped, Option.map_some]

/-- The recorder adds the tasks behind those that it has. -/
theorem solo_addEntries (s : SchedStats) (before more : List TaskEntry) :
    exists events, (delivery Writer numCpus).Solo (.inl cpu) s (.recorder (.slice ts before)) events
      (SchedStats.addEntries cpu s (UInt32.ofNat before.length) more)
      (.recorder (.slice ts (before ++ more))) := by
  induction more generalizing s before with
  | nil =>
      rw [List.append_nil]
      exact ⟨[], .refl _ _⟩
  | cons entry more inductionHypothesis =>
      have next : UInt32.ofNat (before ++ [entry]).length = UInt32.ofNat before.length + 1 := by
        rw [List.length_append, List.length_singleton, UInt32.ofNat_add]
        rfl
      rcases inductionHypothesis
        ((s.lookUp cpu).writeTask cpu entry (UInt32.ofNat before.length) (s.curEntry cpu))
        (before ++ [entry]) with ⟨events, rest⟩
      rw [next, List.append_assoc, List.singleton_append] at rest
      exact ⟨_, .cons (.add entry) (step_recorder numCpus cpu online rfl)
        (.cons .run (step_recorder numCpus cpu online rfl) rest)⟩

/-- A recorder whom nobody disturbs records its slice. -/
theorem solo_recordSlice (s : SchedStats) {entries : List TaskEntry} (nonempty : entries ≠ []) :
    exists events, (delivery Writer numCpus).Solo (.inl cpu) s (.recorder .idle) events
      (s.recordSlice cpu ts entries) (.recorder .idle) := by
  have whole : exists events, (delivery Writer numCpus).Solo _ _ _ events _ _ :=
    solo_addEntries numCpus cpu ts online (s.autoLockStatsStart cpu ts) [] entries
  rcases whole with ⟨events, added⟩
  rw [List.nil_append] at added
  have finished : exists events, (delivery Writer numCpus).Solo (.inl cpu)
      (SchedStats.addEntries cpu (s.autoLockStatsStart cpu ts) 0 entries)
      (.recorder (.slice ts entries)) events (s.recordSlice cpu ts entries) (.recorder .idle) := by
    rcases List.exists_cons_of_ne_nil nonempty with ⟨entry, rest, rfl⟩
    rw [SchedStats.recordSlice, if_neg nonempty, SchedStats.autoLockStatsEnd]
    generalize SchedStats.addEntries cpu (s.autoLockStatsStart cpu ts) 0 (entry :: rest) = added
    have step : forall {action s s' pc pc' event},
        recorderStep cpu action s pc = some (s', pc', event) ->
          (delivery Writer numCpus).step (.inl cpu) action s (.recorder pc) =
            some (s', .recorder pc', event) := step_recorder numCpus cpu online
    have finish : (delivery Writer numCpus).step (.inl cpu) .finish added
        (.recorder (.slice ts (entry :: rest))) =
          some (added.lookUp cpu, .recorder (.count ts (entry :: rest) (added.curEntry cpu)),
            .internal) := step rfl
    cases there : added.curEntry cpu with
    | none =>
        rw [there] at finish
        exact ⟨_, .cons .finish finish (.cons .run (step rfl) (.refl _ _))⟩
    | some cur =>
        rw [there] at finish
        have offset : (added.lookUp cpu).offsets cpu = added.offsets cpu := by
          rw [SchedStats.lookUp_offsets]
        have accessed : forall (s : SchedStats) (offset : UInt32),
            (s.access cpu).setOffset cpu offset = s.setOffset cpu offset := by
          intro s offset
          simp [SchedStats.setOffset, SchedStats.access]
        dsimp only
        rw [← offset, ← accessed]
        exact ⟨_, .cons .finish finish (.cons .run (step rfl)
          (.cons .run (step rfl) (.cons .run (step rfl) (.refl _ _))))⟩
  rcases finished with ⟨events', finished⟩
  exact ⟨_, .cons .start (step_recorder numCpus cpu online rfl)
    (.cons (.time ts) (step_recorder numCpus cpu online rfl) (added.append finished))⟩

end recorder

/-- The bytes that the steps of a write-out hand out. -/
def handedOut (events : List StatsEvent) : List (Nat × List UInt8) :=
  events.filterMap fun event =>
    match event with
    | .delivered cpu bytes => some (cpu, bytes)
    | _ => none

theorem handedOut_nextCpu (i offset : Nat) : handedOut [(nextCpu numCpus i offset).2] = [] := by
  unfold nextCpu
  split <;> rfl

/-- A write-out that nobody disturbs does what the system call does if it can copy all. -/
theorem solo_autoLockStatsWriteout {s : SchedStats} {copied : Nat -> Nat}
    (enough : s.Copied numCpus copied) (kbuf : Nat) (user : ByteMemory) (w : Writer) :
    exists events,
      let out := (List.range numCpus).foldl (Writeout.round kbuf copied) ⟨s, user, 0, 0, []⟩
      (delivery Writer numCpus).Solo (.inr w) s (.writer .idle) events out.stats (.writer .idle) ∧
        handedOut events = out.delivered := by
  have rounds : forall n, n ≤ numCpus -> exists events,
      let out := (List.range n).foldl (Writeout.round kbuf copied) ⟨s, user, 0, 0, []⟩
      (delivery Writer numCpus).Solo (.inr w) s (.writer .idle) events out.stats
          (.writer (nextCpu numCpus n out.offset).1) ∧
        handedOut events = out.delivered := by
    intro n atMost
    induction n with
    | zero =>
        exact ⟨_, .cons .call rfl (.refl _ _), handedOut_nextCpu numCpus 0 0⟩
    | succ n inductionHypothesis =>
        rcases inductionHypothesis (Nat.le_of_succ_le atMost) with ⟨events, solo, handed⟩
        have before := Writeout.delivered_foldl s kbuf user fun cpu (less : cpu < n) =>
          enough cpu (less.trans atMost)
        have here := before.offsets n
        rw [if_neg (Nat.lt_irrefl n)] at here
        rw [List.range_succ, List.foldl_append, List.foldl_cons, List.foldl_nil]
        generalize (List.range n).foldl (Writeout.round kbuf copied) ⟨s, user, 0, 0, []⟩ = out
          at solo handed before here
        have whole : ¬copied n < (out.stats.pending n).length := by
          rw [SchedStats.pending_length, here]
          exact Nat.not_lt.mpr (enough n atMost)
        rw [nextCpu, if_pos (Nat.lt_of_succ_le atMost)] at solo
        let next := nextCpu numCpus (n + 1) (out.offset + (out.stats.offsets n).toNat)
        have round : (delivery Writer numCpus).Solo (.inr w) out.stats
            (.writer (.read n out.offset))
            [.internal, .delivered n (out.stats.pending n), next.2]
            ((out.stats.access n).setOffset n 0) (.writer next.1) :=
          .cons .run rfl (.cons .run rfl (.cons .run rfl (.refl _ _)))
        refine ⟨events ++ [.internal, .delivered n (out.stats.pending n), next.2], ?_, ?_⟩
        · simp only [Writeout.round, before.ret, if_true, Writeout.copyToUser]
          exact solo.append round
        · have quiet : handedOut [next.2] = [] := handedOut_nextCpu numCpus _ _
          have split : handedOut (events ++ [.internal, .delivered n (out.stats.pending n), next.2]) =
              handedOut events ++ ([(n, out.stats.pending n)] ++ handedOut [next.2]) :=
            List.filterMap_append
          have accessed : (out.stats.access n).pending n = out.stats.pending n := rfl
          simp only [Writeout.round, before.ret, if_true, Writeout.copyToUser, accessed,
            if_neg whole, split, quiet, handed, List.append_nil]
  rcases rounds numCpus (Nat.le_refl _) with ⟨events, solo, handed⟩
  refine ⟨events, ?_, handed⟩
  rwa [nextCpu, if_neg (Nat.lt_irrefl _)] at solo

end alone

end Delivery

end Stats
end Autolock
