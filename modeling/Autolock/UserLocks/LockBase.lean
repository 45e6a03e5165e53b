import Autolock.Concurrency.Threads
import Autolock.Concurrency.LockSpec
import Autolock.UserLocks.AutolockPage
import Mathlib.Data.List.Basic

namespace Autolock
namespace UserLocks

open Concurrency

/-!
# The base lock `I_user_lock_base`

One function, configured by four preprocessor flags, tries a fast
test-and-set, then spins, then yields, then sleeps on a futex.  Each load,
store, exchange and system call is one step; pausing and yielding change
nothing and belong to the step that follows them.

The counters of the waiting loops are kept because they decide which loop a
thread is in.  They never leave the range of the C types: `iterCount` goes
from 0 down to the negated bound, `backoffIter` stays within its mask.
-/

/-- The preprocessor flags of `lock-base.h`; `interpose` is
`I_USE_FOR_SHARED_LIBRARY_INTERPOSE`. -/
structure LockBaseConfig where
  autolock : Bool
  yield : Bool
  backoff : Bool
  futex : Bool
  interpose : Bool
  deriving DecidableEq

namespace LockBaseConfig

def unlocked (cfg : LockBaseConfig) : UInt32 := if cfg.interpose then 0 else 1
def locked (cfg : LockBaseConfig) : UInt32 := if cfg.interpose then 1 else 0

def pauseIters : Int := 128
def yieldIters : Int := 4
def backoffMaxMask : Nat := 255
def backoffInitMask : Nat := 31

end LockBaseConfig

/-- The only word that a waiter of this lock watches: `lock->mem`. -/
inductive LockBaseWord where
  | mem
  deriving DecidableEq, Repr

/-- `I_user_lock_base_t` with the kernel's queue of threads asleep on `mem`. -/
structure UserLockBase (Tid : Type) where
  mem : UInt32
  waiters : UInt32
  sleepers : List Tid

/-- How the kernel reads a watched word. -/
def UserLockBase.read {Tid : Type} (lock : UserLockBase Tid) : LockBaseWord -> UInt32
  | .mem => lock.mem

/-- The API function whose fast path is running. -/
inductive LockBaseCaller where
  | trylock
  | lock
  deriving DecidableEq, Repr

/-- The waiting loop that runs `trylock_maybe_sched`, with its counters. -/
inductive LockBaseLoop where
  | pause (iterCount : Int) (backoffIter : Nat)
  | yield (iterCount : Int) (backoffIter : Nat)
  deriving DecidableEq, Repr

/-- The next atomic step of a thread. -/
inductive LockBasePc where
  | outside
  | tryLoad (caller : LockBaseCaller)
  | tryExchange (caller : LockBaseCaller)
  | setWatchFor
  | setWatchNeq
  | readTime
  | maybeLoad (loop : LockBaseLoop)
  | maybeDisarm (loop : LockBaseLoop)
  | maybeExchange (loop : LockBaseLoop)
  | maybeRearm (loop : LockBaseLoop)
  | addWaiter (backoffIter : Nat)
  | futexWait (backoffIter : Nat)
  | futexSleep (backoffIter : Nat)
  | subWaiter (backoffIter : Nat)
  | holding
  | unlockStore
  | unlockLoadWaiters
  | unlockWake
  deriving DecidableEq, Repr

namespace LockBasePc

/-- Inside `lock` or `trylock`: the function has been called and has not returned. -/
def inLockOrTrylock : LockBasePc -> Bool
  | .outside | .holding | .unlockStore | .unlockLoadWaiters | .unlockWake => false
  | _ => true

/-- From the return of a successful `lock` or `trylock` to the store that unlocks. -/
def holdsLock : LockBasePc -> Bool
  | .holding | .unlockStore => true
  | _ => false

end LockBasePc

structure LockBaseThread where
  pc : LockBasePc
  page : KernelAutolockAbi LockBaseWord

/-- What a step needs to be told: the client's calls, the clock, which sleeper
a wake-up chooses, and whether a signal ends a futex wait.  `elsewhere` stands
for the thread's use of other locks between two calls: it ends disarmed and
leaves any `watch_for` and `watch_neq` behind. -/
inductive LockBaseAction (Tid : Type) where
  | elsewhere (watchFor watchNeq : UInt32)
  | callLock
  | callTrylock
  | callUnlock
  | run
  | time (now : UInt64)
  | interrupted
  | wake (woken : Option Tid)

inductive LockBaseEvent where
  | internal
  | lockReturned (ret : Int)
  | trylockReturned (ret : Int)
  | unlocked
  | unlockReturned (ret : Int)
  deriving DecidableEq, Repr

namespace LockBase

variable {Tid : Type}

/-- `restart:` and the entry of the first waiting loop. -/
def restart (backoffIter : Nat) : LockBasePc :=
  .maybeLoad (.pause 0 backoffIter)

/-- After the page is prepared: the backoff seed, if configured, then the loop. -/
def enterLoop (cfg : LockBaseConfig) : LockBasePc :=
  if cfg.backoff then .readTime else restart 0

/-- Out of the first loop: to the yielding loop if configured, else to the futex. -/
def leavePause (cfg : LockBaseConfig) (iterCount : Int) (backoffIter : Nat) : LockBasePc :=
  if cfg.yield then .maybeLoad (.yield (if cfg.futex then 0 else iterCount) backoffIter)
  else .addWaiter backoffIter

/-- The rest of the loop body once `trylock_maybe_sched` has failed. -/
def afterFailure (cfg : LockBaseConfig) : LockBaseLoop -> LockBasePc
  | .pause iterCount backoffIter =>
      let backoffIter' := if cfg.backoff then
        (backoffIter + (backoffIter + 1)) &&& LockBaseConfig.backoffMaxMask else backoffIter
      if cfg.yield || cfg.futex then
        let iterCount' := iterCount - 1
        if iterCount' < -LockBaseConfig.pauseIters then leavePause cfg iterCount' backoffIter'
        else .maybeLoad (.pause iterCount' backoffIter')
      else .maybeLoad (.pause iterCount backoffIter')
  | .yield iterCount backoffIter =>
      if cfg.futex then
        let iterCount' := iterCount - 1
        if iterCount' < -LockBaseConfig.yieldIters then .addWaiter backoffIter
        else .maybeLoad (.yield iterCount' backoffIter)
      else .maybeLoad (.yield iterCount backoffIter)

/-- `trylock_maybe_sched` found the lock taken: re-arm, if there is a page to arm. -/
def failMaybe (cfg : LockBaseConfig) (loop : LockBaseLoop) : LockBasePc :=
  if cfg.autolock then .maybeRearm loop else afterFailure cfg loop

/-- A failed fast path: `trylock` returns, `lock` prepares to wait. -/
def failTry (cfg : LockBaseConfig) : LockBaseCaller -> LockBasePc × LockBaseEvent
  | .trylock => (.outside, .trylockReturned iFailure)
  | .lock => (if cfg.autolock then .setWatchFor else enterLoop cfg, .internal)

def succeedTry : LockBaseCaller -> LockBaseEvent
  | .trylock => .trylockReturned iSuccess
  | .lock => .lockReturned iSuccess

/-- One atomic step of one thread. -/
def step [DecidableEq Tid] (cfg : LockBaseConfig) (t : Tid) (action : LockBaseAction Tid)
    (lock : UserLockBase Tid) (l : LockBaseThread) :
    Option (UserLockBase Tid × LockBaseThread × LockBaseEvent) :=
  match l.pc, action with
  | .outside, .elsewhere watchFor watchNeq =>
      some (lock, { l with page := { l.page with watchFor := watchFor, watchNeq := watchNeq } },
        .internal)
  | .outside, .callLock => some (lock, { l with pc := .tryLoad .lock }, .internal)
  | .outside, .callTrylock => some (lock, { l with pc := .tryLoad .trylock }, .internal)
  -- `I_user_lock_base_trylock`
  | .tryLoad caller, .run =>
      if lock.mem ≠ cfg.locked then some (lock, { l with pc := .tryExchange caller }, .internal)
      else some (lock, { l with pc := (failTry cfg caller).1 }, (failTry cfg caller).2)
  | .tryExchange caller, .run =>
      if lock.mem ≠ cfg.locked then
        some ({ lock with mem := cfg.locked }, { l with pc := .holding }, succeedTry caller)
      else
        some ({ lock with mem := cfg.locked }, { l with pc := (failTry cfg caller).1 },
          (failTry cfg caller).2)
  -- `I_user_lock_base_lock`, before its loops
  | .setWatchFor, .run =>
      some (lock, ⟨.setWatchNeq, l.page.autolockSetKernelWatchFor cfg.unlocked⟩, .internal)
  | .setWatchNeq, .run =>
      some (lock, ⟨enterLoop cfg, l.page.autolockSetKernelWatchNeq 0⟩, .internal)
  | .readTime, .time now =>
      some (lock, { l with pc := restart (now.toNat &&& LockBaseConfig.backoffInitMask) },
        .internal)
  -- `I_internal_user_lock_base_trylock_maybe_sched`
  | .maybeLoad loop, .run =>
      if lock.mem ≠ cfg.locked then
        some (lock,
          { l with pc := if cfg.autolock then .maybeDisarm loop else .maybeExchange loop }, .internal)
      else some (lock, { l with pc := failMaybe cfg loop }, .internal)
  | .maybeDisarm loop, .run =>
      some (lock, ⟨.maybeExchange loop, l.page.autolockSetKernelWatchMem none⟩, .internal)
  | .maybeExchange loop, .run =>
      if lock.mem ≠ cfg.locked then
        some ({ lock with mem := cfg.locked }, { l with pc := .holding }, .lockReturned iSuccess)
      else
        some ({ lock with mem := cfg.locked }, { l with pc := failMaybe cfg loop }, .internal)
  | .maybeRearm loop, .run =>
      some (lock, ⟨afterFailure cfg loop, l.page.autolockSetKernelWatchMem (some .mem)⟩, .internal)
  -- The futex part of `I_user_lock_base_lock`; an error of `futex_wait` is ignored
  | .addWaiter backoffIter, .run =>
      some ({ lock with waiters := lock.waiters + 1 }, { l with pc := .futexWait backoffIter },
        .internal)
  | .futexWait backoffIter, .run =>
      if lock.mem = cfg.locked then
        some ({ lock with sleepers := lock.sleepers ++ [t] },
          { l with pc := .futexSleep backoffIter }, .internal)
      else some (lock, { l with pc := .subWaiter backoffIter }, .internal)
  | .futexWait backoffIter, .interrupted =>
      some (lock, { l with pc := .subWaiter backoffIter }, .internal)
  | .futexSleep backoffIter, .run =>
      if t ∈ lock.sleepers then none
      else some (lock, { l with pc := .subWaiter backoffIter }, .internal)
  | .futexSleep backoffIter, .interrupted =>
      some ({ lock with sleepers := lock.sleepers.erase t },
        { l with pc := .subWaiter backoffIter }, .internal)
  | .subWaiter backoffIter, .run =>
      some ({ lock with waiters := lock.waiters - 1 }, { l with pc := restart backoffIter },
        .internal)
  -- `I_user_lock_base_unlock`; a wake-up that woke somebody is reported as a failure
  | .holding, .callUnlock => some (lock, { l with pc := .unlockStore }, .internal)
  | .unlockStore, .run =>
      some ({ lock with mem := cfg.unlocked },
        { l with pc := if cfg.futex then .unlockLoadWaiters else .outside }, .unlocked)
  | .unlockLoadWaiters, .run =>
      if lock.waiters ≠ 0 then some (lock, { l with pc := .unlockWake }, .internal)
      else some (lock, { l with pc := .outside }, .unlockReturned iSuccess)
  | .unlockWake, .wake (some woken) =>
      if woken ∈ lock.sleepers then
        some ({ lock with sleepers := lock.sleepers.erase woken }, { l with pc := .outside },
          .unlockReturned iFailure)
      else none
  | .unlockWake, .wake none =>
      if lock.sleepers = [] then
        some (lock, { l with pc := .outside }, .unlockReturned iSuccess)
      else none
  | _, _ => none

/-- The base lock as a program of its threads. -/
def program (Tid : Type) [DecidableEq Tid] (cfg : LockBaseConfig) :
    Program Tid (UserLockBase Tid) LockBaseThread (LockBaseAction Tid) LockBaseEvent where
  step := step cfg

/-- After `I_user_lock_base_init`: the word unlocked, nobody waiting, every
thread outside and disarmed.  Nothing is assumed of `watch_for` and `watch_neq`. -/
def init (cfg : LockBaseConfig) (s : Machine Tid (UserLockBase Tid) LockBaseThread) : Prop :=
  s.shared = ⟨cfg.unlocked, 0, []⟩ ∧
    forall t, (s.thread t).pc = .outside ∧ (s.thread t).page.watchMem = none

/-- The initial machine whose pages are fresh, that is all zero. -/
def fresh (Tid : Type) (cfg : LockBaseConfig) : Machine Tid (UserLockBase Tid) LockBaseThread where
  shared := ⟨cfg.unlocked, 0, []⟩
  thread := fun _ => ⟨.outside, ⟨none, 0, 0⟩⟩

theorem fresh_init (cfg : LockBaseConfig) : init cfg (fresh Tid cfg) :=
  ⟨rfl, fun _ => ⟨rfl, rfl⟩⟩

abbrev system [DecidableEq Tid] (cfg : LockBaseConfig) :=
  (program Tid cfg).system (init cfg)

/-- What the mutual exclusion specification sees of a step. -/
def observe : Tid × LockBaseEvent -> List (LockMove Tid)
  | (t, .lockReturned _) => [.acquire t]
  | (t, .trylockReturned ret) => if ret = iSuccess then [.acquire t] else []
  | (t, .unlocked) => [.release t]
  | _ => []

end LockBase

end UserLocks
end Autolock
