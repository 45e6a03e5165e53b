import Autolock.Concurrency.FutexStatus
import Autolock.Locks.LockOpsWakeup
import Autolock.UserLocks.LockBaseSafety

namespace Autolock
namespace Locks

open Concurrency UserLocks

/-!
# The status codes of the two locks on a futex

`I_user_lock_base` and `lock_ops` differ in where they wait, but they take and
return statuses alike: any raw result of `futex_wake` other than zero is a
failure, although a positive one is the number of the threads woken.

In both a wake-up may also fail, with a negative result; the step that does so
is added to the programs here.
-/

def EINTR : Int := 4
def EAGAIN : Int := 11

/-! ## `I_user_lock_base` -/

namespace BaseStatus

variable {Tid : Type}

/-- `futex_wake` fails, and `unlock` returns what it makes of that. -/
def failWake (_ : Tid) (result : Int) (lock : UserLockBase Tid) (l : LockBaseThread) :
    Option (UserLockBase Tid × LockBaseThread × LockBaseEvent) :=
  if l.pc = .unlockWake ∧ result < 0 then
    some (lock, { l with pc := .outside },
      .unlockReturned (if result ≠ 0 then iFailure else iSuccess))
  else none

/-- The lock with failing wake-ups, all of whose steps are recorded. -/
def program (Tid : Type) [DecidableEq Tid] (cfg : LockBaseConfig) :
    Program Tid (UserLockBase Tid) LockBaseThread (LockBaseAction Tid ⊕ Int)
      (StepRecord LockBaseThread (LockBaseAction Tid ⊕ Int) LockBaseEvent) :=
  ((LockBase.program Tid cfg).extend failWake).recorded

abbrev system [DecidableEq Tid] (cfg : LockBaseConfig) :=
  (program Tid cfg).system (LockBase.init cfg)

/-- Without a futex `unlock` returns success in the step of its store. -/
def unlockReturn (cfg : LockBaseConfig) : LockBaseEvent -> Option Int
  | .unlockReturned ret => some ret
  | .unlocked => if cfg.futex then none else some iSuccess
  | _ => none

def futexResult (record : StepRecord LockBaseThread (LockBaseAction Tid ⊕ Int) LockBaseEvent) :
    Option Int :=
  match record.before.pc, record.action with
  | .futexWait _, .inl .run =>
      match record.after.pc with
      | .futexSleep _ => none
      | _ => some (-EAGAIN)
  | .futexWait _, .inl .interrupted => some (-EINTR)
  | .futexSleep _, .inl .run => some 0
  | .futexSleep _, .inl .interrupted => some (-EINTR)
  | .unlockWake, .inl (.wake none) => some 0
  | .unlockWake, .inl (.wake (some _)) => some 1
  | .unlockWake, .inr result => some result
  | _, _ => none

def view (cfg : LockBaseConfig) : FutexLock Tid (UserLockBase Tid) LockBaseThread
    (LockBaseAction Tid ⊕ Int) LockBaseEvent where
  word := fun lock => lock.mem
  reads := fun _ lock => lock.mem
  sleepers := fun lock => lock.sleepers
  unlocked := cfg.unlocked
  locked := cfg.locked
  success := iSuccess
  holds := fun l => l.pc.holdsLock
  exchanges := fun record => match record.before.pc, record.action with
    | .tryExchange .trylock, .inl .run => true
    | _, _ => false
  trylockReturn := fun
    | .trylockReturned ret => some ret
    | _ => none
  lockReturn := fun
    | .lockReturned ret => some ret
    | _ => none
  unlockReturn := unlockReturn cfg
  futexResult := futexResult
  wakes := fun record => match record.before.pc, record.action with
    | .unlockWake, .inl (.wake _) => true
    | .unlockWake, .inr _ => true
    | _, _ => false

end BaseStatus

/-! ## `lock_ops` -/

namespace OpsStatus

variable {Tid : Type}

def failWake (_ : Tid) (result : Int) (lock : LockOpsBase Tid) (pc : LockOpsPc) :
    Option (LockOpsBase Tid × LockOpsPc × LockOpsEvent) :=
  if pc = .unlockWake ∧ result < 0 then
    some (lock, .outside, .unlockReturned (if result ≠ 0 then kFailure else kSuccess))
  else none

def program (Tid : Type) [DecidableEq Tid] (cfg : LockOpsConfig) :
    Program Tid (LockOpsBase Tid) LockOpsPc (LockOpsAction Tid ⊕ Int)
      (StepRecord LockOpsPc (LockOpsAction Tid ⊕ Int) LockOpsEvent) :=
  ((LockOps.program Tid cfg).extend failWake).recorded

abbrev system [DecidableEq Tid] (cfg : LockOpsConfig) :=
  (program Tid cfg).system LockOps.init

def futexResult (record : StepRecord LockOpsPc (LockOpsAction Tid ⊕ Int) LockOpsEvent) :
    Option Int :=
  match record.before, record.action with
  | .futexWait, .inl .run => if record.after = .futexSleep then none else some (-EAGAIN)
  | .futexWait, .inl .interrupted => some (-EINTR)
  | .futexSleep, .inl .run => some 0
  | .futexSleep, .inl .interrupted => some (-EINTR)
  | .unlockWake, .inl (.wake none) => some 0
  | .unlockWake, .inl (.wake (some _)) => some 1
  | .unlockWake, .inr result => some result
  | _, _ => none

def view : FutexLock Tid (LockOpsBase Tid) LockOpsPc (LockOpsAction Tid ⊕ Int) LockOpsEvent where
  word := fun lock => lock.tso.memory .mem
  reads := fun t lock => lock.tso.load t .mem
  sleepers := fun lock => lock.sleepers
  unlocked := kUnlocked
  locked := kLocked
  success := kSuccess
  holds := fun pc => pc.holdsLock
  exchanges := fun record => match record.before, record.action with
    | .tryExchange .api, .inl .run => true
    | _, _ => false
  trylockReturn := fun
    | .tryLockReturned ret => some ret
    | _ => none
  lockReturn := fun
    | .lockReturned ret => some ret
    | _ => none
  unlockReturn := fun
    | .unlockReturned ret => some ret
    | _ => none
  futexResult := futexResult
  wakes := fun record => match record.before, record.action with
    | .unlockWake, .inl (.wake _) => true
    | .unlockWake, .inr _ => true
    | _, _ => false

end OpsStatus

end Locks
end Autolock
