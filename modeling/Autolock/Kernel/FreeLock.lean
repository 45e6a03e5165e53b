import Autolock.Kernel.PickNextEntity
import Autolock.Kernel.WatchingThreads
import Autolock.UserLocks.LockBaseSafety

namespace Autolock
namespace Kernel

open Concurrency UserLocks

/-!
# What the scheduler does while a lock is free

The threads of the base lock are tasks of the scheduler, which asks their contexts
before it picks one.  As long as the lock word is unlocked it picks on every
processor what it would pick without the patches.
-/

variable {Tid Page Shared Addr Local Entity : Type} [DecidableEq Entity]

/-- What the pick asks, with the answers of the contexts.  An entity may belong to a
task without a context. -/
def WatchedWords.schedQueries (words : WatchedWords Page Shared Addr)
    (entityBefore : Entity -> Entity -> Bool) (wakeupPreemptEntity : Entity -> Entity -> Int)
    (taskOf : Entity -> Option Tid) (rest : Entity -> BitVec 64 -> BitVec 32)
    (s : Machine Tid Shared (WatchedTask Local Page)) : SchedQueries Entity where
  entityBefore := entityBefore
  wakeupPreemptEntity := wakeupPreemptEntity
  autoLockDontSched := fun e =>
    (taskOf e).any fun t =>
      (s.thread t).kernel.autoLockDontSched (words.kernelWord s.shared (rest e))

/-- If nobody is held both versions pick the same. -/
theorem CfsRq.pickNextEntityV6_of_free {queries : SchedQueries Entity} (rq : CfsRq Entity)
    (free : forall e, queries.autoLockDontSched e = false) :
    rq.pickNextEntityV6 queries = rq.pickNextEntityV0 queries := by
  cases leftmost : rq.left queries with
  | none => simp only [pickNextEntityV6, pickNextEntityV0, leftmost]
  | some se =>
      have fails : ¬rq.WalkFinds queries := by
        rintro ⟨se', _, _, _, held, _⟩
        rw [free se'] at held
        cases held
      rw [pickNextEntityV6_of_not_walkFinds fails leftmost]
      simp only [pickNextEntityV0, leftmost, free, Bool.false_eq_true, or_false]
      split <;> rfl

section baseLock

variable [DecidableEq Tid] [DecidableEq Page]
  {words : WatchedWords Page (UserLockBase Tid) LockBaseWord}

/-- The threads of the base lock with their contexts. -/
abbrev lockBaseTasks (words : WatchedWords Page (UserLockBase Tid) LockBaseWord)
    (cfg : LockBaseConfig) :=
  words.system (LockBase.program Tid cfg) (LockBase.init cfg) LockBaseThread.page

/-- In every run of the base lock and the contexts, as long as the lock word is unlocked
the patched scheduler picks from every run queue what the unpatched one picks; and a
thread that is not inside `lock` or `trylock`, such as the holder, is never passed over. -/
theorem free_lock_unpatched (cfg : LockBaseConfig) (reads : words.read = UserLockBase.read)
    {trace : List (Tid × WatchedEvent LockBaseEvent)}
    {s : Machine Tid (UserLockBase Tid) (WatchedTask LockBaseThread Page)}
    (run : (lockBaseTasks words cfg).Run TransitionSystem.unguarded trace s)
    (entityBefore : Entity -> Entity -> Bool) (wakeupPreemptEntity : Entity -> Entity -> Int)
    (taskOf : Entity -> Option Tid) (rest : Entity -> BitVec 64 -> BitVec 32) :
    let queries := words.schedQueries entityBefore wakeupPreemptEntity taskOf rest s
    (s.shared.mem = cfg.unlocked -> forall rq : CfsRq Entity,
      rq.pickNextEntityV6 queries = rq.pickNextEntityV0 queries) ∧
    forall e t, taskOf e = some t -> (s.thread t).thread.pc.inLockOrTrylock = false ->
      queries.autoLockDontSched e = false := by
  intro queries
  have ok := WatchedWords.tasksOk_of_run run
  rcases (LockBase.threadInvariant cfg).run (WatchedWords.threads_run run) with
    ⟨holder, -, -, locals⟩
  -- A task is passed over only if the predicate on its page holds.
  have spared : forall e t, taskOf e = some t ->
      (s.thread t).thread.page.held s.shared.read = false ->
      queries.autoLockDontSched e = false := by
    intro e t isTask notHeld
    rw [Bool.eq_false_iff]
    intro passedOver
    change (taskOf e).any _ = true at passedOver
    rw [isTask] at passedOver
    have held := WatchedWords.held_of_autoLockDontSched (ok t).maps (ok t).agrees passedOver
    rw [reads, notHeld] at held
    cases held
  refine ⟨fun free rq => rq.pickNextEntityV6_of_free fun e => ?_, fun e t isTask returned => ?_⟩
  · cases isTask : taskOf e with
    | none =>
        show (taskOf e).any _ = false
        rw [isTask]
        rfl
    | some t => exact spared e t isTask ((locals t).2.not_held free)
  · exact spared e t isTask (KernelAutolockAbi.held_disarmed ((locals t).2.disarmed returned))

end baseLock

open WatchedWords in
/-- The waiter that was passed over is asked again when the word has been unlocked. -/
theorem free_lock_unpatched_released :
    let s := (loneLockProgram.play
      (heldBack ++ [(false, .thread .callUnlock false), (false, .thread .run false)])
      loneLockStart).1
    let queries := loneLock.schedQueries (fun _ _ => false) (fun _ _ => 0) some (fun _ _ => 0) s
    s.shared.mem = spinAutolock.unlocked ∧
      (s.thread true).kernel.autoLock.watchMem ≠ 0 ∧
      forall rq : CfsRq Bool, rq.pickNextEntityV6 queries = rq.pickNextEntityV0 queries :=
  ⟨by decide, by decide, (free_lock_unpatched spinAutolock rfl
    (Program.run_play loneLock_init _ (by decide)) _ _ _ _).1 (by decide)⟩

end Kernel
end Autolock
