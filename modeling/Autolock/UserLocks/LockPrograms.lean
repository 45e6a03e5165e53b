import Autolock.Concurrency.LockClient
import Autolock.UserLocks.ClhSafety
import Autolock.UserLocks.LockBaseSafety

namespace Autolock
namespace UserLocks

open Concurrency

/-!
# The locks that need no condition, as their callers see them

The base lock in every configuration and the CLH lock with and without autolock
exclude in every run.  Here each of them is given the phases of its calls, so
that whatever uses a lock can be run over it.  A `trylock` is left out.
-/

/-! ## The base lock -/

namespace LockBase

variable {Tid : Type}

def callKind : LockBaseAction Tid -> CallKind
  | .callLock => .callLock
  | .callUnlock => .callUnlock
  | .run | .time _ | .interrupted | .wake _ => .goOn
  | .elsewhere _ _ => .elsewhere
  | .callTrylock => .excluded

def callPhase : LockBasePc -> Option CallPhase
  | .outside => some .idle
  | .tryLoad .trylock | .tryExchange .trylock => none
  | .tryLoad .lock | .tryExchange .lock | .setWatchFor | .setWatchNeq | .readTime | .maybeLoad _
  | .maybeDisarm _ | .maybeExchange _ | .maybeRearm _ | .addWaiter _ | .futexWait _ | .futexSleep _
  | .subWaiter _ => some .locking
  | .holding => some .holding
  | .unlockStore => some .unlocking
  | .unlockLoadWaiters | .unlockWake => some .leaving

variable {cfg : LockBaseConfig}

@[simp] theorem callPhase_enterLoop : callPhase (enterLoop cfg) = some .locking := by
  unfold enterLoop restart
  split <;> rfl

@[simp] theorem callPhase_afterFailure (loop : LockBaseLoop) :
    callPhase (afterFailure cfg loop) = some .locking := by
  cases loop <;> simp only [afterFailure, leavePause] <;> repeat' split
  all_goals rfl

@[simp] theorem callPhase_failMaybe (loop : LockBaseLoop) :
    callPhase (failMaybe cfg loop) = some .locking := by
  unfold failMaybe
  split
  · rfl
  · exact callPhase_afterFailure loop

theorem callPhase_failTry : callPhase (failTry cfg .lock).1 = some .locking := by
  simp only [failTry]
  split
  · rfl
  · exact callPhase_enterLoop

theorem step_callPhase [DecidableEq Tid] {t : Tid} {action : LockBaseAction Tid}
    {lock lock' : UserLockBase Tid} {l l' : LockBaseThread} {event : LockBaseEvent}
    {phase : CallPhase} (stepped : step cfg t action lock l = some (lock', l', event))
    (included : callKind action ≠ .excluded) (here : callPhase l.pc = some phase) :
    exists phase', callPhase l'.pc = some phase' ∧
      PhaseStep t (callKind action) phase phase' (observe (t, event)) := by
  rcases l with ⟨pc, page⟩
  cases pc <;> cases action <;> simp only [step, reduceCtorEq] at stepped
  case outside.elsewhere =>
    cases here
    cases stepped
    exact ⟨_, rfl, .elsewhere⟩
  case outside.callLock =>
    cases here
    cases stepped
    exact ⟨_, rfl, .callsLock⟩
  case outside.callTrylock => exact absurd rfl included
  case tryLoad.run caller =>
    cases caller <;> cases here
    split at stepped <;> cases stepped
    · exact ⟨_, rfl, .waits (Or.inl rfl)⟩
    · exact ⟨_, callPhase_failTry, .waits (Or.inl rfl)⟩
  case tryExchange.run caller =>
    cases caller <;> cases here
    split at stepped <;> cases stepped
    · exact ⟨_, rfl, .acquires⟩
    · exact ⟨_, callPhase_failTry, .waits (Or.inl rfl)⟩
  case setWatchNeq.run =>
    cases here
    cases stepped
    exact ⟨_, callPhase_enterLoop, .waits (Or.inl rfl)⟩
  case maybeLoad.run loop =>
    cases here
    split at stepped <;> cases stepped
    · refine ⟨.locking, ?_, .waits (Or.inl rfl)⟩
      dsimp only
      split <;> rfl
    · exact ⟨_, callPhase_failMaybe loop, .waits (Or.inl rfl)⟩
  case maybeExchange.run loop =>
    cases here
    split at stepped <;> cases stepped
    · exact ⟨_, rfl, .acquires⟩
    · exact ⟨_, callPhase_failMaybe loop, .waits (Or.inl rfl)⟩
  case maybeRearm.run loop =>
    cases here
    cases stepped
    exact ⟨_, callPhase_afterFailure loop, .waits (Or.inl rfl)⟩
  case holding.callUnlock =>
    cases here
    cases stepped
    exact ⟨_, rfl, .callsUnlock⟩
  case unlockStore.run =>
    cases here
    cases stepped
    by_cases futex : cfg.futex = true
    · simp only [futex, if_true]
      exact ⟨_, rfl, .releases (Or.inl rfl)⟩
    · simp only [futex]
      exact ⟨_, rfl, .releases (Or.inr rfl)⟩
  case unlockLoadWaiters.run =>
    cases here
    split at stepped <;> cases stepped
    · exact ⟨_, rfl, .leaves (Or.inl rfl)⟩
    · exact ⟨_, rfl, .leaves (Or.inr rfl)⟩
  case unlockWake.wake woken =>
    cases here
    cases woken <;> dsimp only at stepped <;> split at stepped <;> cases stepped <;>
      exact ⟨_, rfl, .leaves (Or.inr rfl)⟩
  -- Every other step is one of a thread that waits.
  all_goals cases here
  all_goals try (split at stepped)
  all_goals cases stepped
  all_goals exact ⟨_, rfl, .waits (Or.inl rfl)⟩

/-- The base lock as its callers see it. -/
def lockProgram (Tid : Type) [DecidableEq Tid] (cfg : LockBaseConfig) :
    LockProgram Tid (UserLockBase Tid) LockBaseThread (LockBaseAction Tid) LockBaseEvent where
  program := program Tid cfg
  init := init cfg
  observe := observe
  kind := callKind
  phase := fun l => callPhase l.pc
  refines := (threadInvariant cfg).simulation
  idle := by
    intro s initial t
    rw [(initial.2 t).1]
    rfl
  lawful := fun _ _ _ _ _ _ _ _ stepped included here => step_callPhase stepped included here

end LockBase

/-! ## The CLH lock -/

namespace Clh

variable {Tid Addr : Type} [DecidableEq Addr]

def callKind : ClhAction Addr -> CallKind
  | .callLock => .callLock
  | .callUnlock => .callUnlock
  | .run | .malloc _ => .goOn
  | .elsewhere _ _ => .elsewhere
  | .callTrylock => .excluded

def callPhase : ClhPc Addr -> CallPhase
  | .outside => .idle
  | .holding _ => .holding
  | .unlockLoadHead _ | .unlockStore _ _ => .unlocking
  | _ => .locking

omit [DecidableEq Addr] in
theorem loadPrev_callPhase {lock lock' : ClhLock Addr} {l l' : ClhThread Addr} {event : ClhEvent}
    {prevNode : Addr} {whenLocked whenUnlocked : ClhPc Addr}
    (loaded : loadPrev lock l prevNode whenLocked whenUnlocked = some (lock', l', event))
    (locked : callPhase whenLocked = .locking) (unlocked : callPhase whenUnlocked = .locking) :
    callPhase l'.pc = .locking ∧ event = .internal := by
  cases loaded
  dsimp only
  split
  · exact ⟨locked, rfl⟩
  · exact ⟨unlocked, rfl⟩

omit [DecidableEq Addr] in
theorem callPhase_hasLock (autolock : Bool) (node prevNode : Addr) :
    callPhase (hasLock autolock node prevNode) = .locking := by
  cases autolock <;> rfl

theorem step_callPhase {autolock : Bool} {t : Tid} {action : ClhAction Addr}
    {lock lock' : ClhLock Addr} {l l' : ClhThread Addr} {event : ClhEvent}
    (stepped : step autolock t action lock l = some (lock', l', event))
    (included : callKind action ≠ .excluded) :
    PhaseStep t (callKind action) (callPhase l.pc) (callPhase l'.pc) (observe (t, event)) := by
  have waits : forall {pc' : ClhPc Addr} {event : ClhEvent},
      callPhase pc' = .locking ∧ event = .internal ->
      PhaseStep t .goOn .locking (callPhase pc') (observe (t, event)) := by
    rintro pc' _ ⟨still, rfl⟩
    rw [still]
    exact .waits (Or.inl rfl)
  rcases l with ⟨pc, page⟩
  cases pc <;> cases action <;> simp only [step, reduceCtorEq] at stepped
  case outside.elsewhere =>
    cases stepped
    exact .elsewhere
  case outside.callLock =>
    cases stepped
    exact .callsLock
  case outside.callTrylock => exact absurd rfl included
  case nodeNew.malloc p =>
    split at stepped <;> cases stepped
    exact .waits (Or.inl rfl)
  case exchangeTail.run node =>
    cases stepped
    exact .waits (Or.inr rfl)
  case testPrev.run node prevNode =>
    refine waits (loadPrev_callPhase stepped ?_ rfl)
    cases autolock <;> rfl
  case nextInQueue.run node prevNode =>
    exact waits (loadPrev_callPhase stepped rfl (callPhase_hasLock autolock node prevNode))
  case pausing.run node prevNode tmpWaitIters =>
    refine waits (loadPrev_callPhase stepped ?_ (callPhase_hasLock autolock node prevNode))
    cases lockWaitNext tmpWaitIters <;> rfl
  case yielding.run node prevNode =>
    exact waits (loadPrev_callPhase stepped rfl (callPhase_hasLock autolock node prevNode))
  case saveHead.run node =>
    cases stepped
    exact .acquires
  case holding.callUnlock node =>
    cases stepped
    exact .callsUnlock
  case unlockLoadHead.run node =>
    cases stepped
    exact .unlocks
  case unlockStore.run node head =>
    cases stepped
    exact .releases (Or.inr rfl)
  all_goals try (split at stepped)
  all_goals cases stepped
  all_goals exact .waits (Or.inl rfl)

/-- The CLH lock as its callers see it. -/
def lockProgram (Tid Addr : Type) [DecidableEq Tid] [DecidableEq Addr] (autolock : Bool) :
    LockProgram Tid (ClhLock Addr) (ClhThread Addr) (ClhAction Addr) ClhEvent where
  program := program Tid Addr autolock
  init := init
  observe := fun label => (observe label).flatMap fun move => [move]
  kind := callKind
  phase := fun l => some (callPhase l.pc)
  refines := (threadInvariant autolock).simulation.trans (fifoLock_refines_mutex Tid)
  idle := by
    intro s initial t
    rw [(initial.2 t).1]
    rfl
  lawful := by
    rintro t action shared l shared' l' event _ stepped included ⟨⟩
    refine ⟨_, rfl, ?_⟩
    rw [List.flatMap_singleton']
    exact step_callPhase stepped included

end Clh

end UserLocks
end Autolock
