import Autolock.Concurrency.Barrier
import Autolock.Concurrency.LockClient
import Autolock.Runner.PerThreadWork
import Autolock.Runner.TotalWorkSafety

namespace Autolock
namespace Runner

open Concurrency

/-!
# The thread function of a benchmark

All threads of a trial run the same function.  They meet at a barrier three
times: one of them then sets the lock up, the benchmark is run between the
second and the third time, and at the end one of them takes the lock down.  The
lock is used as a `LockClient` uses it, so that the function can be run over any
lock.
-/

/-! ## The two benchmarks -/

/-- A benchmark after its barrier: where its threads start, and where they have returned. -/
structure Bench (Tid Body Event : Type) where
  client : LockClient Tid UInt64 Body Unit Event
  start : Body
  left : Body

/-- `I_bench_total_work` as a client: between two calls of the lock it does what
`TotalWork.step` does. -/
def TotalWork.client (Tid : Type) (p : TotalWork) :
    LockClient Tid UInt64 TotalWorkPc Unit TotalWorkEvent where
  intent
    | .lock => .lock .loadGlobalState .internal
    | .unlock => .unlock (extraLoop p.extraIter) .internal
    | .unlockBreak => .unlock .left .left
    | _ => .compute
  compute := fun _ _ globalState pc =>
    match pc with
    | .loadGlobalState =>
        if p.workDone globalState then some (globalState, .unlockBreak, .tested true)
        else some (globalState, csLoop p.csIter, .tested false)
    | .csLoad i => some (globalState, .csStore i globalState, .internal)
    | .csStore i value => some (value + 1, csLoop (i - 1), .internal)
    | .extraWork i => some (globalState, extraLoop (i - 1), .internal)
    | _ => none

/-- The value of the constant that stands for a benchmark. -/
def BenchType.value : BenchType -> UInt32
  | .totalWork => 0
  | .perThreadWork => 1

/-- What a trial reads from `run_params`. -/
structure BenchParams where
  withSchedStats : UInt32
  outerIter : UInt32
  csIter : UInt32
  extraIter : UInt32
  contentionMask : UInt32
  benchType : BenchType
  numThreads : UInt32
  deriving DecidableEq, Repr

/-- Where a thread of a benchmark is. -/
abbrev BenchPc : BenchType -> Type
  | .totalWork => TotalWorkPc
  | .perThreadWork => PerThreadWorkPc

abbrev BenchEvent : BenchType -> Type
  | .totalWork => TotalWorkEvent
  | .perThreadWork => Unit

instance (type : BenchType) : DecidableEq (BenchPc type) :=
  match type with
  | .totalWork => inferInstanceAs (DecidableEq TotalWorkPc)
  | .perThreadWork => inferInstanceAs (DecidableEq PerThreadWorkPc)

namespace BenchParams

def totalWork (params : BenchParams) : TotalWork where
  totalIter := params.outerIter
  csIter := params.csIter
  extraIter := params.extraIter

def perThreadWork (params : BenchParams) : PerThreadWork where
  outerIter := params.outerIter
  csIter := params.csIter
  extraIter := params.extraIter

/-- The benchmark that `bench_runner` calls.  With a contention mask it calls
`I_bench_total_work<lock_T, 0>` too, which then takes the first lock only. -/
def bench (Tid : Type) (params : BenchParams) :
    (type : BenchType) -> Bench Tid (BenchPc type) (BenchEvent type)
  | .totalWork => ⟨params.totalWork.client Tid, .lock, .left⟩
  | .perThreadWork => ⟨params.perThreadWork.client Tid, params.perThreadWork.start, .left⟩

/-- `BENCH_TOTAL_WORK ? contention_mask : 0` -/
def numLocks (params : BenchParams) : UInt32 :=
  if BenchType.totalWork.value ≠ 0 then params.contentionMask else 0

end BenchParams

/-! ## The function around them -/

/-- The three calls of `thread_barrier_wait`. -/
inductive BarrierCall where
  | setup
  | start
  | finish
  deriving DecidableEq, Repr

/-- What the unique threads have called, in order. -/
inductive RunnerCall where
  | init (i : UInt32)
  | startStats
  | destroy (i : UInt32)
  | statsOut
  deriving DecidableEq, Repr

/-- What the threads share besides the lock. -/
structure RunnerData where
  barrier : Barrier
  calls : List RunnerCall
  globalState : UInt64

/-- The next step of a thread. -/
inductive RunnerPc (Body : Type) where
  | arrive (call : BarrierCall)
  | wait (call : BarrierCall) (round : Nat)
  | initLock (i : UInt32)
  | startStats (isUnique : Bool)
  | bench (body : Body)
  | destroyLock (i : UInt32)
  | statsOut (isUnique : Bool)
  | returned
  deriving DecidableEq

inductive RunnerEvent (Event : Type) where
  | internal
  | bench (event : Event)

namespace BenchRunner

variable {Tid Body Event : Type}

/-- The condition of the loop that initializes the locks. -/
def initLoop (params : BenchParams) (i : UInt32) : RunnerPc Body :=
  if i ≤ params.numLocks then .initLock i else .startStats true

/-- The condition of the loop that destroys them. -/
def destroyLoop (params : BenchParams) (i : UInt32) : RunnerPc Body :=
  if i ≤ params.numLocks then .destroyLock i else .statsOut true

/-- Where a thread goes on after the barrier, which has told it whether it is unique. -/
def afterBarrier (params : BenchParams) (start : Body) (isUnique : Bool) : BarrierCall -> RunnerPc Body
  | .setup => if isUnique then initLoop params 0 else .startStats false
  | .start => .bench start
  | .finish => if isUnique then destroyLoop params 0 else .statsOut false

/-- The call of a benchmark, seen from the function around it. -/
def benchIntent [DecidableEq Body] (bench : Bench Tid Body Event) (body : Body) :
    Intent (RunnerPc Body) (RunnerEvent Event) :=
  if body = bench.left then .compute else
    match bench.client.intent body with
    | .lock body' event => .lock (.bench body') (.bench event)
    | .unlock body' event => .unlock (.bench body') (.bench event)
    | .compute => .compute

/-- `bench_runner`: a thread that waits may be told that it is unique. -/
def compute [DecidableEq Body] (params : BenchParams) (bench : Bench Tid Body Event) (t : Tid)
    (isUnique : Bool) (data : RunnerData) :
    RunnerPc Body -> Option (RunnerData × RunnerPc Body × RunnerEvent Event)
  | .arrive call =>
      some ({ data with barrier := data.barrier.arrive.1 }, .wait call data.barrier.arrive.2,
        .internal)
  | .wait call round =>
      if data.barrier.mayDepart round isUnique then
        some ({ data with barrier := data.barrier.depart round isUnique },
          afterBarrier params bench.start isUnique call, .internal)
      else none
  | .initLock i =>
      some ({ data with calls := data.calls ++ [.init i] }, initLoop params (i + 1), .internal)
  | .startStats unique =>
      some ({ data with
          calls := data.calls ++ if params.withSchedStats ≠ 0 ∧ unique then [.startStats] else [] },
        .arrive .start, .internal)
  | .bench body =>
      if body = bench.left then some (data, .arrive .finish, .internal)
      else
        (bench.client.compute t () data.globalState body).map fun result =>
          ({ data with globalState := result.1 }, .bench result.2.1, .bench result.2.2)
  | .destroyLock i =>
      some ({ data with calls := data.calls ++ [.destroy i] }, destroyLoop params (i + 1), .internal)
  | .statsOut unique =>
      some ({ data with
          calls := data.calls ++ if params.withSchedStats ≠ 0 ∧ unique then [.statsOut] else [] },
        .returned, .internal)
  | .returned => none

/-- `bench_runner` as a client of the lock. -/
def client [DecidableEq Body] (params : BenchParams) (bench : Bench Tid Body Event) :
    LockClient Tid RunnerData (RunnerPc Body) Bool (RunnerEvent Event) where
  intent
    | .bench body => benchIntent bench body
    | _ => .compute
  compute := compute params bench

/-- After `run_params_reset`: nothing has been called, the counter is zero, and
the barrier is as the trial before has left it. -/
def reset (barrier : Barrier) : RunnerData where
  barrier := barrier
  calls := []
  globalState := 0

section trials

variable [DecidableEq Tid] {Lock LockLocal LockAction LockEvent : Type}

/-- The threads of one trial over a lock. -/
abbrev trial (params : BenchParams) (lock : LockProgram Tid Lock LockLocal LockAction LockEvent)
    (barrier : Barrier) :=
  ((client params (params.bench Tid params.benchType)).overLock lock).system
    (LockClient.startsOn lock (reset barrier) fun _ => .arrive .setup)

/-- The barrier with which the trials of `I_run` begin.  It is initialized once;
a trial ends when all its threads have been joined. -/
inductive BeforeTrial (params : BenchParams)
    (lock : LockProgram Tid Lock LockLocal LockAction LockEvent) : Nat -> Barrier -> Prop
  | first : BeforeTrial params lock 0 (Barrier.init params.numThreads.toNat)
  | next {k : Nat} {barrier : Barrier} {trace : List _} {s : Machine Tid _ _}
      (before : BeforeTrial params lock k barrier)
      (run : (trial params lock barrier).Run TransitionSystem.unguarded trace s)
      (joined : forall t, (s.thread t).2 = .returned) :
      BeforeTrial params lock (k + 1) s.shared.data.barrier

end trials

end BenchRunner

end Runner
end Autolock
