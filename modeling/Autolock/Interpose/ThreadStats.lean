import Autolock.Concurrency.Threads
import Mathlib.Data.UInt

namespace Autolock
namespace Interpose

open Concurrency

/-!
# The list of what each thread has measured

The first timed call of a thread allocates a node and pushes it onto a list.  The
destructor of the library takes the whole list, leaves a seal in its place and
prints every node.  A thread that still runs then finds the seal when it wants to
push: it prints its node, frees it, and goes on without one.

Each access to the list is a step, and so is each access to a node that another
thread may read or write: a thread counts a call store by store, in the order of
the source, while the destructor reads the node field by field.  `calloc`
succeeds.
-/

/-- A pointer to a node, `NULL` or `I_THREAD_STATS_END`. -/
inductive StatsPtr where
  | null
  | node (n : Nat)
  | sealed
  deriving DecidableEq, Repr

/-- The calls that are timed. -/
inductive TimedFunc where
  | trylock
  | lock
  | unlock
  deriving DecidableEq, Repr

/-- `I_thread_stats_t` -/
structure ThreadStats where
  next : StatsPtr
  timeStart : UInt64
  timeHistory : UInt32 -> UInt64
  time : TimedFunc -> UInt64
  numCalls : TimedFunc -> UInt32
  historyIdx : UInt32

/-- What `I_thread_stats_out` writes to the standard error stream. -/
inductive StatsOutput where
  | nothing
  | noTimes
  | line (header : Bool) (numCalls : List UInt32) (timeTotal : UInt64) (times : List UInt64)
  deriving DecidableEq, Repr

namespace ThreadStats

/-- What `calloc` returns. -/
def zero : ThreadStats where
  next := .null
  timeStart := 0
  timeHistory := fun _ => 0
  time := fun _ => 0
  numCalls := fun _ => 0
  historyIdx := 0

/-- `I_COOLDOWN_CALLS` -/
def cooldownCalls : UInt32 := 64

def funcs : List TimedFunc := [.trylock, .lock, .unlock]

/-- `I_thread_stats_out` on a node that nobody writes to meanwhile: whether the header has been
printed after it, and what it writes. -/
def out (hasPrintedHdr : Bool) (stats : ThreadStats) : Bool × StatsOutput :=
  if stats.numCalls .trylock = 0 ∧ stats.numCalls .lock = 0 ∧ stats.numCalls .unlock = 0 then
    (hasPrintedHdr, .nothing)
  else
    let timeEnd := stats.timeHistory ((stats.historyIdx - 1) % cooldownCalls)
    if timeEnd ≤ stats.timeStart then (hasPrintedHdr, .noTimes)
    else (true, .line (!hasPrintedHdr) (funcs.map stats.numCalls) (timeEnd - stats.timeStart)
      (funcs.map stats.time))

end ThreadStats

/-- Where `I_thread_stats_out` is behind the load of `next`, with what it has read. -/
inductive OutPc where
  | condition (func : TimedFunc)
  | historyIdx
  | timeHistory (lastHistIdx : UInt32)
  | timeStart (timeEnd : UInt64)
  | exchange (timeTotal : UInt64)
  | arguments (header : Bool) (timeTotal : UInt64) (numCalls : List UInt32) (times : List UInt64)
  deriving DecidableEq, Repr

/-- Where a thread is in a counted call, behind the store to `num_calls`. -/
inductive CountPc where
  | time (func : TimedFunc) (start timeEnd : UInt64)
  | historyIdx (timeEnd : UInt64)
  | timeHistory (idx : UInt32) (timeEnd : UInt64)
  deriving DecidableEq, Repr

namespace ThreadStats

/-- The next access of `I_thread_stats_out`: where it is then, or what it has written. -/
def outStep (stats : ThreadStats) (hasPrintedHdr : Bool) : OutPc -> Bool × (OutPc ⊕ StatsOutput)
  | .condition func =>
      if stats.numCalls func ≠ 0 then (hasPrintedHdr, .inl .historyIdx)
      else
        match func with
        | .trylock => (hasPrintedHdr, .inl (.condition .lock))
        | .lock => (hasPrintedHdr, .inl (.condition .unlock))
        | .unlock => (hasPrintedHdr, .inr .nothing)
  | .historyIdx =>
      (hasPrintedHdr, .inl (.timeHistory ((stats.historyIdx - 1) % cooldownCalls)))
  | .timeHistory lastHistIdx =>
      (hasPrintedHdr, .inl (.timeStart (stats.timeHistory lastHistIdx)))
  | .timeStart timeEnd =>
      if timeEnd ≤ stats.timeStart then (hasPrintedHdr, .inr .noTimes)
      else (hasPrintedHdr, .inl (.exchange (timeEnd - stats.timeStart)))
  | .exchange timeTotal => (true, .inl (.arguments (!hasPrintedHdr) timeTotal [] []))
  -- the arguments of `fprintf` are loaded from the left to the right
  | .arguments header timeTotal numCalls times =>
      match funcs[numCalls.length]?, funcs[times.length]? with
      | some func, _ =>
          (hasPrintedHdr,
            .inl (.arguments header timeTotal (numCalls ++ [stats.numCalls func]) times))
      | none, some func =>
          (hasPrintedHdr, .inl (.arguments header timeTotal numCalls (times ++ [stats.time func])))
      | none, none => (hasPrintedHdr, .inr (.line header numCalls timeTotal times))

/-- The accesses of `I_thread_stats_out`, one by one. -/
inductive OutAccess (stats : ThreadStats) (printed : Bool) :
    OutPc -> Bool -> OutPc ⊕ StatsOutput -> Prop
  | someCall (func : TimedFunc) (some : stats.numCalls func ≠ 0) :
      OutAccess stats printed (.condition func) printed (.inl .historyIdx)
  | noTrylock (none : stats.numCalls .trylock = 0) :
      OutAccess stats printed (.condition .trylock) printed (.inl (.condition .lock))
  | noLock (none : stats.numCalls .lock = 0) :
      OutAccess stats printed (.condition .lock) printed (.inl (.condition .unlock))
  | noUnlock (none : stats.numCalls .unlock = 0) :
      OutAccess stats printed (.condition .unlock) printed (.inr .nothing)
  | historyIdx : OutAccess stats printed .historyIdx printed
      (.inl (.timeHistory ((stats.historyIdx - 1) % cooldownCalls)))
  | timeHistory (lastHistIdx : UInt32) :
      OutAccess stats printed (.timeHistory lastHistIdx) printed
        (.inl (.timeStart (stats.timeHistory lastHistIdx)))
  | early (timeEnd : UInt64) (early : timeEnd ≤ stats.timeStart) :
      OutAccess stats printed (.timeStart timeEnd) printed (.inr .noTimes)
  | later (timeEnd : UInt64) (later : ¬timeEnd ≤ stats.timeStart) :
      OutAccess stats printed (.timeStart timeEnd) printed
        (.inl (.exchange (timeEnd - stats.timeStart)))
  | exchange (timeTotal : UInt64) :
      OutAccess stats printed (.exchange timeTotal) true
        (.inl (.arguments (!printed) timeTotal [] []))
  | numCalls (header : Bool) (timeTotal : UInt64) (numCalls : List UInt32) (times : List UInt64)
      (func : TimedFunc) (more : funcs[numCalls.length]? = some func) :
      OutAccess stats printed (.arguments header timeTotal numCalls times) printed
        (.inl (.arguments header timeTotal (numCalls ++ [stats.numCalls func]) times))
  | time (header : Bool) (timeTotal : UInt64) (numCalls : List UInt32) (times : List UInt64)
      (func : TimedFunc) (more : funcs[times.length]? = some func) :
      OutAccess stats printed (.arguments header timeTotal numCalls times) printed
        (.inl (.arguments header timeTotal numCalls (times ++ [stats.time func])))
  | line (header : Bool) (timeTotal : UInt64) (numCalls : List UInt32) (times : List UInt64)
      (noCall : funcs[numCalls.length]? = none) (noTime : funcs[times.length]? = none) :
      OutAccess stats printed (.arguments header timeTotal numCalls times) printed
        (.inr (.line header numCalls timeTotal times))

theorem outAccess {stats : ThreadStats} {printed printed' : Bool} {pc : OutPc}
    {result : OutPc ⊕ StatsOutput} (stepped : stats.outStep printed pc = (printed', result)) :
    OutAccess stats printed pc printed' result := by
  cases pc with
  | condition func =>
      simp only [outStep] at stepped
      split at stepped
      · next some =>
          cases stepped
          exact .someCall func some
      · next none =>
          have zero := not_not.mp none
          cases func <;> cases stepped
          · exact .noTrylock zero
          · exact .noLock zero
          · exact .noUnlock zero
  | historyIdx =>
      cases stepped
      exact .historyIdx
  | timeHistory lastHistIdx =>
      cases stepped
      exact .timeHistory lastHistIdx
  | timeStart timeEnd =>
      simp only [outStep] at stepped
      split at stepped
      · next early =>
          cases stepped
          exact .early timeEnd early
      · next later =>
          cases stepped
          exact .later timeEnd later
  | exchange timeTotal =>
      cases stepped
      exact .exchange timeTotal
  | arguments header timeTotal calls times =>
      simp only [outStep] at stepped
      split at stepped
      · next func more =>
          cases stepped
          exact .numCalls header timeTotal calls times func more
      · next func _ more =>
          cases stepped
          exact .time header timeTotal calls times func more
      · next noCall noTime =>
          cases stepped
          exact .line header timeTotal calls times noCall noTime

/-- The first store of a counted call in `timing_end`. -/
def addCall (stats : ThreadStats) (func : TimedFunc) : ThreadStats :=
  { stats with numCalls := Function.update stats.numCalls func (stats.numCalls func + 1) }

/-- The next store of a counted call, and where the thread is then in it. -/
def countStep (stats : ThreadStats) : CountPc -> ThreadStats × Option CountPc
  | .time func start timeEnd =>
      ({ stats with time := Function.update stats.time func (stats.time func + (timeEnd - start)) },
        if func = .unlock then some (.historyIdx timeEnd) else none)
  | .historyIdx timeEnd =>
      ({ stats with historyIdx := stats.historyIdx + 1 },
        some (.timeHistory (stats.historyIdx % cooldownCalls) timeEnd))
  | .timeHistory idx timeEnd =>
      ({ stats with timeHistory := Function.update stats.timeHistory idx timeEnd }, none)

@[simp] theorem addCall_next (stats : ThreadStats) (func : TimedFunc) :
    (stats.addCall func).next = stats.next :=
  rfl

@[simp] theorem countStep_next (stats : ThreadStats) (pc : CountPc) :
    (stats.countStep pc).1.next = stats.next := by
  cases pc <;> rfl

end ThreadStats

/-- `I_thread_stats_l`, the nodes, the number of nodes allocated so far, and `I_has_printed_hdr`. -/
structure StatsList where
  head : StatsPtr
  nodes : Nat -> ThreadStats
  allocated : Nat
  hasPrintedHdr : Bool

/-- Where a thread is in a timed call that started at a time. -/
inductive TimedPc where
  | idle
  | load (node : Nat) (start : UInt64)
  | exchange (node : Nat) (expected : StatsPtr) (start : UInt64)
  | assign (stats : Option Nat) (start : UInt64)
  | count (pc : CountPc)
  /-- the thread has dereferenced `NULL` -/
  | crashed
  deriving DecidableEq, Repr

/-- Where the destructor is. -/
inductive DestructorPc where
  | waiting
  | walk (stats : StatsPtr)
  | out (node : Nat) (next : StatsPtr) (pc : OutPc)
  | done
  deriving DecidableEq, Repr

/-- A thread with `I_warmup_count` and `I_thread_stats`, or the one that runs the destructor. -/
inductive TimingThread where
  | timed (pc : TimedPc) (warmup : UInt32) (stats : Option Nat)
  | destructor (pc : DestructorPc)
  deriving DecidableEq, Repr

/-- A timed call of one of the functions with its times, a step of a thread, and the end of the
process. -/
inductive TimingAction where
  | timed (func : TimedFunc) (start timeEnd : UInt64)
  | run
  | exit
  deriving DecidableEq, Repr

inductive TimingEvent where
  | internal
  /-- what a thread that wants to push has found -/
  | loaded (head : StatsPtr)
  | pushed (node : Nat)
  | sealed
  /-- the destructor has entered `I_thread_stats_out` with the node -/
  | entered (node : Nat)
  /-- the destructor has run `I_thread_stats_out` on the node -/
  | output (node : Nat) (text : StatsOutput)
  deriving DecidableEq, Repr

namespace Timing

def warmupCalls : UInt32 := 64

/-- `timing_end` up to the push: its first access to a node, or `calloc`. -/
def timingEnd (func : TimedFunc) (start timeEnd : UInt64) (s : StatsList) (warmup : UInt32)
    (stats : Option Nat) : StatsList × TimingThread :=
  if warmup ≠ 0 then
    match stats with
    | none =>
        ({ s with
            nodes := Function.update s.nodes s.allocated ThreadStats.zero
            allocated := s.allocated + 1 },
          .timed (.load s.allocated start) warmup none)
    | some n =>
        ({ s with nodes := Function.update s.nodes n { s.nodes n with timeStart := start } },
          .timed .idle (warmup - 1) (some n))
  else
    match stats with
    | none => (s, .timed .crashed warmup none)
    | some n =>
        ({ s with nodes := Function.update s.nodes n ((s.nodes n).addCall func) },
          .timed (.count (.time func start timeEnd)) warmup (some n))

/-- A thread with its next step inside `I_thread_stats_add`, behind it or in a counted call. -/
def timedStep (s : StatsList) (pc : TimedPc) (warmup : UInt32) (stats : Option Nat) :
    Option (StatsList × TimingThread × TimingEvent) :=
  match pc with
  | .load n start =>
      if s.head = .sealed then
        -- the node, which only this thread knows, is printed and freed
        some ({ s with hasPrintedHdr := ((s.nodes n).out s.hasPrintedHdr).1 },
          .timed (.assign none start) warmup stats, .loaded s.head)
      else
        some ({ s with nodes := Function.update s.nodes n { s.nodes n with next := s.head } },
          .timed (.exchange n s.head start) warmup stats, .loaded s.head)
  | .exchange n expected start =>
      if s.head = expected then
        some ({ s with head := .node n }, .timed (.assign (some n) start) warmup stats, .pushed n)
      else some (s, .timed (.load n start) warmup stats, .internal)
  -- `I_thread_stats` is assigned, `I_warmup_count` decremented, `time_start` stored
  | .assign none _ => some (s, .timed .crashed (warmup - 1) none, .internal)
  | .assign (some n) start =>
      some ({ s with nodes := Function.update s.nodes n { s.nodes n with timeStart := start } },
        .timed .idle (warmup - 1) (some n), .internal)
  | .count counting =>
      stats.map fun n =>
        let result := (s.nodes n).countStep counting
        ({ s with nodes := Function.update s.nodes n result.1 },
          .timed (result.2.elim .idle .count) warmup (some n), .internal)
  | _ => none

/-- `I_destroy_timing` -/
def destructorStep (s : StatsList) : DestructorPc -> Option (StatsList × TimingThread × TimingEvent)
  | .walk .null => some (s, .destructor .done, .internal)
  | .walk (.node n) =>
      some (s, .destructor (.out n (s.nodes n).next (.condition .trylock)), .entered n)
  | .out n next pc =>
      match (s.nodes n).outStep s.hasPrintedHdr pc with
      | (hasPrintedHdr, .inl pc') =>
          some ({ s with hasPrintedHdr := hasPrintedHdr }, .destructor (.out n next pc'), .internal)
      | (hasPrintedHdr, .inr text) =>
          some ({ s with hasPrintedHdr := hasPrintedHdr }, .destructor (.walk next),
            .output n text)
  | _ => none

/-- The threads, and the destructor as `none`. -/
def program (Tid : Type) : Program (Option Tid) StatsList TimingThread TimingAction TimingEvent where
  step := fun _ action s l =>
    match l, action with
    | .timed .idle warmup stats, .timed func start timeEnd =>
        let result := timingEnd func start timeEnd s warmup stats
        some (result.1, result.2, .internal)
    | .timed pc warmup stats, .run => timedStep s pc warmup stats
    | .destructor .waiting, .exit =>
        some ({ s with head := .sealed }, .destructor (.walk s.head), .sealed)
    | .destructor pc, .run => destructorStep s pc
    | _, _ => none

/-- Nobody has made a timed call. -/
def init {Tid : Type} (s : Machine (Option Tid) StatsList TimingThread) : Prop :=
  s.shared.head = .null ∧ s.shared.allocated = 0 ∧
    (forall t, s.thread (some t) = .timed .idle warmupCalls none) ∧
    s.thread none = .destructor .waiting

abbrev system (Tid : Type) [DecidableEq Tid] :
    TransitionSystem (Machine (Option Tid) StatsList TimingThread) (Option Tid × TimingEvent) :=
  (program Tid).system init

end Timing

end Interpose
end Autolock
