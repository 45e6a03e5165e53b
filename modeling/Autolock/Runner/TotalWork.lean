import Autolock.Concurrency.Threads

namespace Autolock
namespace Runner

open Concurrency

/-!
# The benchmark of total work

Every thread takes the lock, leaves if the counter that all share has reached
the total, and otherwise adds its chunk to the counter and releases the lock.
The test is for equality.

The lock is any that provides mutual exclusion: it can be taken while nobody
holds it.  Adding one to the counter is a load and a store.
-/

inductive BenchType where
  | totalWork
  | perThreadWork
  deriving DecidableEq, Repr

/-- The parameters of `I_bench_total_work` with a `contention_mask` of zero. -/
structure TotalWork where
  totalIter : UInt32
  csIter : UInt32
  extraIter : UInt32
  deriving DecidableEq, Repr

/-- The lock, by its holder, and the counter. -/
structure BenchShared (Tid : Type) where
  lock : Option Tid
  globalState : UInt64
  deriving DecidableEq

/-- The next step of a thread, with the iterations that are left of its inner loop. -/
inductive TotalWorkPc where
  | lock
  | loadGlobalState
  | csLoad (i : UInt32)
  | csStore (i : UInt32) (value : UInt64)
  | unlock
  | extraWork (i : UInt32)
  | unlockBreak
  | left
  deriving DecidableEq, Repr

inductive TotalWorkEvent where
  | internal
  | tested (workDone : Bool)
  | left
  deriving DecidableEq, Repr

namespace TotalWork

variable {Tid : Type}

/-- `I_work_done` -/
def workDone (p : TotalWork) (curState : UInt64) : Bool :=
  p.totalIter.toUInt64 = curState

/-- The condition of the loop in the critical section. -/
def csLoop (i : UInt32) : TotalWorkPc :=
  if i = 0 then .unlock else .csLoad i

/-- The condition of the loop outside. -/
def extraLoop (i : UInt32) : TotalWorkPc :=
  if i = 0 then .lock else .extraWork i

/-- One step of one thread.  What the extra work counts stays in the thread. -/
def step [DecidableEq Tid] (p : TotalWork) (t : Tid) (shared : BenchShared Tid) :
    TotalWorkPc -> Option (BenchShared Tid × TotalWorkPc × TotalWorkEvent)
  | .lock =>
      if shared.lock = none then
        some ({ shared with lock := some t }, .loadGlobalState, .internal)
      else none
  | .loadGlobalState =>
      if p.workDone shared.globalState then some (shared, .unlockBreak, .tested true)
      else some (shared, csLoop p.csIter, .tested false)
  | .csLoad i => some (shared, .csStore i shared.globalState, .internal)
  | .csStore i value =>
      some ({ shared with globalState := value + 1 }, csLoop (i - 1), .internal)
  | .unlock => some ({ shared with lock := none }, extraLoop p.extraIter, .internal)
  | .extraWork i => some (shared, extraLoop (i - 1), .internal)
  | .unlockBreak => some ({ shared with lock := none }, .left, .left)
  | .left => none

def program (Tid : Type) [DecidableEq Tid] (p : TotalWork) :
    Program Tid (BenchShared Tid) TotalWorkPc Unit TotalWorkEvent where
  step := fun t _ => p.step t

/-- After `run_params_reset`: the lock free, the counter zero, every thread about
to enter its loop. -/
def start (Tid : Type) : Machine Tid (BenchShared Tid) TotalWorkPc where
  shared := ⟨none, 0⟩
  thread := fun _ => .lock

abbrev system (Tid : Type) [DecidableEq Tid] (p : TotalWork) :
    TransitionSystem (Machine Tid (BenchShared Tid) TotalWorkPc) (Tid × TotalWorkEvent) :=
  (program Tid p).system fun s => s = start Tid

end TotalWork

/-- `get_expected_count` -/
def getExpectedCount (numThreads outerIter csIter : UInt32) : BenchType -> UInt64
  | .totalWork => outerIter.toUInt64
  | .perThreadWork => numThreads.toUInt64 * outerIter.toUInt64 * csIter.toUInt64

/-! ## What is to be shown -/

namespace TotalWork

variable {Tid : Type}

/-- The thread has found the work done. -/
def Done : TotalWorkPc -> Prop
  | .unlockBreak | .left => True
  | _ => False

/-- Some thread goes on testing, and no test will ever be true. -/
def PermanentlyFalse [DecidableEq Tid] (p : TotalWork)
    (s : Machine Tid (BenchShared Tid) TotalWorkPc) : Prop :=
  (exists t, ¬Done (s.thread t)) ∧
    forall labels s', (system Tid p).Steps s labels s' -> forall t, (t, .tested true) ∉ labels

/-- What a reachable state has to satisfy; `numThreads` is what the runner passes on. -/
structure Completes [DecidableEq Tid] (p : TotalWork) (numThreads : UInt32)
    (s : Machine Tid (BenchShared Tid) TotalWorkPc) : Prop where
  notStuck : ¬PermanentlyFalse p s
  exact : forall t, s.thread t = .left -> s.shared.globalState = p.totalIter.toUInt64
  expected : (forall t, s.thread t = .left) ->
    s.shared.globalState = getExpectedCount numThreads p.totalIter p.csIter .totalWork

end TotalWork

end Runner
end Autolock
