import Autolock.Concurrency.Population
import Autolock.Concurrency.StoreBuffer
import Autolock.Concurrency.Threads

namespace Autolock
namespace Locks

open Concurrency

/-!
# The generic lock `lock_ops`

A class template that tries to take the lock, spins, yields and finally sleeps
on a futex.  Except for the store in `unlock`, which is a plain one, every
write to the lock is a locked instruction; memory is that of x86.

The kernel compares the word of a futex with memory, in one step with the
enqueueing of the thread, and a wake-up begins with a full barrier.  Pausing
and yielding change nothing and belong to the step that follows them.
-/

/-- The template parameters. -/
structure LockOpsConfig where
  maxRawIter : UInt32
  maxYieldIter : UInt32
  withBackoff : Bool
  withYield : Bool
  withFutex : Bool
  deriving DecidableEq, Repr

def kUnlocked : UInt32 := 1
def kLocked : UInt32 := 0
def kSuccess : Int := 0
def kFailure : Int := 1

/-- The fields of `lock_base_t`. -/
inductive LockWord where
  | mem
  | waiters
  deriving DecidableEq, Repr

/-- `lock_base_t` in memory behind store buffers, with the kernel's queue of
threads asleep on `mem`. -/
structure LockOpsBase (Tid : Type) where
  tso : StoreBuffers Tid LockWord UInt32
  sleepers : List Tid

/-- Where `try_lock` has been called, with the counters of the loop around it. -/
inductive TryLockSite where
  | api
  | first
  | raw (iterCount backoff : UInt32)
  | yield (iterCount : UInt32)
  deriving DecidableEq, Repr

/-- The next atomic step of a thread. -/
inductive LockOpsPc where
  | outside
  | tryLoad (site : TryLockSite)
  | tryExchange (site : TryLockSite)
  | readTime
  | addWaiter
  | futexWait
  | futexSleep
  | subWaiter
  | holding
  | unlockStore
  | unlockLoadWaiters
  | unlockWake
  deriving DecidableEq, Repr

namespace LockOpsPc

/-- Inside `lock` or `unlock`: the function has been called and has not returned. -/
def inside : LockOpsPc -> Bool
  | .outside | .holding | .tryLoad .api | .tryExchange .api => false
  | _ => true

/-- From the return of a successful `lock` or `try_lock` to the store that unlocks. -/
def holdsLock : LockOpsPc -> Bool
  | .holding | .unlockStore => true
  | _ => false

/-- Between the increment and the decrement of the waiter count. -/
def registered : LockOpsPc -> Bool
  | .futexWait | .futexSleep | .subWaiter => true
  | _ => false

end LockOpsPc

/-- The client's calls, the clock, a signal that ends a futex wait, the sleeper
that a wake-up chooses, and the memory that drains a store. -/
inductive LockOpsAction (Tid : Type) where
  | callLock
  | callTryLock
  | callUnlock
  | run
  | time (now : UInt64)
  | interrupted
  | wake (woken : Option Tid)
  | drain

inductive LockOpsEvent where
  | internal
  | lockReturned (ret : Int)
  | tryLockReturned (ret : Int)
  | unlockReturned (ret : Int)
  deriving DecidableEq, Repr

namespace LockOps

variable {Tid : Type}

def backoffInit (now : UInt64) : UInt32 :=
  (now &&& 31).toUInt32

def backoffNext (cfg : LockOpsConfig) (backoff : UInt32) : UInt32 :=
  if cfg.withBackoff then (backoff + backoff + 1) &&& 511 else 0

/-- Out of the loops: to the futex if configured, else around again. -/
def leaveLoops (cfg : LockOpsConfig) : LockOpsPc :=
  if cfg.withFutex then .addWaiter else .tryLoad .first

def leaveRaw (cfg : LockOpsConfig) : LockOpsPc :=
  if cfg.withYield then .tryLoad (.yield 0) else leaveLoops cfg

/-- What follows a failed `try_lock`. -/
def afterFailure (cfg : LockOpsConfig) : TryLockSite -> LockOpsPc × LockOpsEvent
  | .api => (.outside, .tryLockReturned kFailure)
  | .first => (if cfg.withBackoff then .readTime else .tryLoad (.raw 0 0), .internal)
  | .raw iterCount backoff =>
      let pc := if cfg.maxRawIter = 0 then .tryLoad (.raw iterCount (backoffNext cfg backoff))
        else if iterCount + 1 ≥ cfg.maxRawIter then leaveRaw cfg
        else .tryLoad (.raw (iterCount + 1) (backoffNext cfg backoff))
      (pc, .internal)
  | .yield iterCount =>
      let pc := if cfg.maxYieldIter = 0 then .tryLoad (.yield iterCount)
        else if iterCount + 1 ≥ cfg.maxYieldIter then leaveLoops cfg
        else .tryLoad (.yield (iterCount + 1))
      (pc, .internal)

def afterSuccess : TryLockSite -> LockOpsEvent
  | .api => .tryLockReturned kSuccess
  | _ => .lockReturned kSuccess

/-- One atomic step of one thread, or of its store buffer. -/
def step [DecidableEq Tid] (cfg : LockOpsConfig) (t : Tid) (action : LockOpsAction Tid)
    (lock : LockOpsBase Tid) (pc : LockOpsPc) :
    Option (LockOpsBase Tid × LockOpsPc × LockOpsEvent) :=
  match pc, action with
  | pc, .drain => (lock.tso.drain t).map fun tso => ({ lock with tso := tso }, pc, .internal)
  | .outside, .callLock => some (lock, .tryLoad .first, .internal)
  | .outside, .callTryLock => some (lock, .tryLoad .api, .internal)
  -- `try_lock`
  | .tryLoad site, .run =>
      if lock.tso.load t .mem ≠ kLocked then some (lock, .tryExchange site, .internal)
      else some (lock, (afterFailure cfg site).1, (afterFailure cfg site).2)
  | .tryExchange site, .run => do
      let (tso, old) <- lock.tso.modify t .mem fun _ => kLocked
      if old ≠ kLocked then some ({ lock with tso := tso }, .holding, afterSuccess site)
      else some ({ lock with tso := tso }, (afterFailure cfg site).1, (afterFailure cfg site).2)
  -- `lock`, between the calls of `try_lock`; an error of `futex_wait` is ignored
  | .readTime, .time now => some (lock, .tryLoad (.raw 0 (backoffInit now)), .internal)
  | .addWaiter, .run => do
      let (tso, _) <- lock.tso.modify t .waiters (· + 1)
      some ({ lock with tso := tso }, .futexWait, .internal)
  | .futexWait, .run =>
      if lock.tso.memory .mem = kLocked then
        some ({ lock with sleepers := lock.sleepers ++ [t] }, .futexSleep, .internal)
      else some (lock, .subWaiter, .internal)
  | .futexWait, .interrupted => some (lock, .subWaiter, .internal)
  | .futexSleep, .run =>
      if t ∈ lock.sleepers then none else some (lock, .subWaiter, .internal)
  | .futexSleep, .interrupted =>
      some ({ lock with sleepers := lock.sleepers.erase t }, .subWaiter, .internal)
  | .subWaiter, .run => do
      let (tso, _) <- lock.tso.modify t .waiters (· - 1)
      some ({ lock with tso := tso }, .tryLoad .first, .internal)
  -- `unlock`; a wake-up that woke somebody is reported as a failure
  | .holding, .callUnlock => some (lock, .unlockStore, .internal)
  | .unlockStore, .run =>
      let lock' := { lock with tso := lock.tso.store t .mem kUnlocked }
      if cfg.withFutex then some (lock', .unlockLoadWaiters, .internal)
      else some (lock', .outside, .unlockReturned kSuccess)
  | .unlockLoadWaiters, .run =>
      if lock.tso.load t .waiters ≠ 0 then some (lock, .unlockWake, .internal)
      else some (lock, .outside, .unlockReturned kSuccess)
  | .unlockWake, .wake (some woken) =>
      if lock.tso.buffer t = [] ∧ woken ∈ lock.sleepers then
        some ({ lock with sleepers := lock.sleepers.erase woken }, .outside,
          .unlockReturned kFailure)
      else none
  | .unlockWake, .wake none =>
      if lock.tso.buffer t = [] ∧ lock.sleepers = [] then
        some (lock, .outside, .unlockReturned kSuccess)
      else none
  | _, _ => none

def program (Tid : Type) [DecidableEq Tid] (cfg : LockOpsConfig) :
    Program Tid (LockOpsBase Tid) LockOpsPc (LockOpsAction Tid) LockOpsEvent where
  step := step cfg

/-- `init`, seen by every thread. -/
def initial (Tid : Type) : Machine Tid (LockOpsBase Tid) LockOpsPc where
  shared := ⟨⟨fun | .mem => kUnlocked | .waiters => 0, fun _ => []⟩, []⟩
  thread := fun _ => .outside

def init (s : Machine Tid (LockOpsBase Tid) LockOpsPc) : Prop :=
  s = initial Tid

theorem initial_init : init (initial Tid) := rfl

abbrev system [DecidableEq Tid] (cfg : LockOpsConfig) :=
  (program Tid cfg).system init

/-- The lock is free and all is quiet, but a thread sleeps on. -/
def Stranded (s : Machine Tid (LockOpsBase Tid) LockOpsPc) : Prop :=
  s.shared.tso.memory .mem = kUnlocked ∧ (forall t, s.shared.tso.buffer t = []) ∧
    (forall t, (s.thread t).inside = true -> t ∈ s.shared.sleepers) ∧
    exists t, t ∈ s.shared.sleepers

end LockOps

end Locks
end Autolock
