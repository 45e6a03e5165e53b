import Autolock.Concurrency.Drain
import Autolock.UserLocks.LockBaseSafety
import Autolock.UserLocks.LockBaseWakeup

namespace Autolock
namespace UserLocks

open Concurrency

/-!
# The base lock does not get stuck

While the word is locked its holder is disarmed, so that the kernel lets it go on
to unlock; while the word is unlocked the kernel holds nobody back, and somebody
is awake.  So from every reachable state all threads get out again, although only
those run that the kernel is willing to schedule, no signal ends a sleep, and no
spurious wake-up does.
-/

namespace LockBase

variable {Tid : Type}

/-- A thread goes on with what it has begun: no new call of `lock` or `trylock`, no signal. -/
def goesOn : LockBaseAction Tid -> Bool
  | .run | .time _ | .callUnlock | .wake _ => true
  | .elsewhere _ _ | .callLock | .callTrylock | .interrupted => false

/-- The kernel schedules the thread, which goes on with what it has begun. -/
def scheduled (_ : Tid) (action : LockBaseAction Tid) (lock : UserLockBase Tid)
    (l : LockBaseThread) : Bool :=
  !l.page.held lock.read && goesOn action

variable [DecidableEq Tid] {cfg : LockBaseConfig} {t : Tid} {lock lock' : UserLockBase Tid}
  {l l' : LockBaseThread} {page : KernelAutolockAbi LockBaseWord} {event : LockBaseEvent}

abbrev Finishes (cfg : LockBaseConfig) (t : Tid) (lock : UserLockBase Tid) (l : LockBaseThread) :=
  (program Tid cfg).Finishes scheduled (fun l => l.pc = .outside) t lock l

omit [DecidableEq Tid] in
theorem scheduled_of {action : LockBaseAction Tid} (notHeld : l.page.held lock.read = false)
    (on : goesOn action = true) : scheduled t action lock l = true := by
  rw [scheduled, notHeld, on]
  rfl

/-! ## From the lock to the outside -/

theorem finishes_unlockWake (disarmed : page.watchMem = none) :
    Finishes cfg t lock ⟨.unlockWake, page⟩ := by
  have notHeld : page.held lock.read = false := KernelAutolockAbi.held_disarmed disarmed
  cases queue : lock.sleepers with
  | nil => exact .step (.wake none) (scheduled_of notHeld rfl) (if_pos queue) (.done rfl)
  | cons u sleepers =>
      have asleep : u ∈ lock.sleepers := queue ▸ List.mem_cons_self
      exact .step (.wake (some u)) (scheduled_of notHeld rfl) (if_pos asleep) (.done rfl)

theorem finishes_unlockLoadWaiters (disarmed : page.watchMem = none) :
    Finishes cfg t lock ⟨.unlockLoadWaiters, page⟩ := by
  have notHeld : page.held lock.read = false := KernelAutolockAbi.held_disarmed disarmed
  by_cases waiters : lock.waiters ≠ 0
  · exact .step .run (scheduled_of notHeld rfl) (if_pos waiters) (finishes_unlockWake disarmed)
  · exact .step .run (scheduled_of notHeld rfl) (if_neg waiters) (.done rfl)

theorem finishes_unlockStore (disarmed : page.watchMem = none) :
    Finishes cfg t lock ⟨.unlockStore, page⟩ := by
  refine .step .run (scheduled_of (KernelAutolockAbi.held_disarmed disarmed) rfl) rfl ?_
  by_cases configured : cfg.futex = true
  · rw [if_pos configured]
    exact finishes_unlockLoadWaiters disarmed
  · rw [if_neg configured]
    exact .done rfl

theorem finishes_holding (disarmed : page.watchMem = none) :
    Finishes cfg t lock ⟨.holding, page⟩ :=
  .step .callUnlock (scheduled_of (KernelAutolockAbi.held_disarmed disarmed) rfl) rfl
    (finishes_unlockStore disarmed)

theorem finishes_of_holdsLock (ok : PageOk cfg l) (holds : l.pc.holdsLock = true) :
    Finishes cfg t lock l := by
  rcases l with ⟨pc, page⟩
  cases pc
  case holding => exact finishes_holding ok
  case unlockStore => exact finishes_unlockStore ok
  all_goals cases holds

/-! ## To the lock, while it is free -/

section free

variable (free : lock.mem = cfg.unlocked)

theorem unlocked_ne_locked (cfg : LockBaseConfig) : cfg.unlocked ≠ cfg.locked := by
  unfold LockBaseConfig.unlocked LockBaseConfig.locked
  cases cfg.interpose <;> decide

include free

/-- Nobody is held back, so that any step of the program is a scheduled one. -/
theorem Finishes.freely (action : LockBaseAction Tid) (ok : PageOk cfg l)
    (on : goesOn action = true) (stepped : step cfg t action lock l = some (lock', l', event))
    (rest : PageOk cfg l' -> Finishes cfg t lock' l') : Finishes cfg t lock l :=
  .step action (scheduled_of (ok.not_held free) on) stepped (rest (step_pageOk stepped ok))

omit [DecidableEq Tid] in
theorem not_taken : lock.mem ≠ cfg.locked := by
  rw [free]
  exact unlocked_ne_locked cfg

theorem finishes_maybeExchange (loop : LockBaseLoop) (ok : PageOk cfg ⟨.maybeExchange loop, page⟩) :
    Finishes cfg t lock ⟨.maybeExchange loop, page⟩ :=
  .freely free .run ok rfl (if_pos (not_taken free)) fun ok' => finishes_holding ok'

theorem finishes_maybeLoad (loop : LockBaseLoop) (ok : PageOk cfg ⟨.maybeLoad loop, page⟩) :
    Finishes cfg t lock ⟨.maybeLoad loop, page⟩ := by
  refine .freely free .run ok rfl (if_pos (not_taken free)) ?_
  dsimp only
  by_cases configured : cfg.autolock = true
  · rw [if_pos configured]
    exact fun ok' => .freely free .run ok' rfl rfl (finishes_maybeExchange free loop)
  · rw [if_neg configured]
    exact finishes_maybeExchange free loop

theorem finishes_enterLoop (ok : PageOk cfg ⟨enterLoop cfg, page⟩) :
    Finishes cfg t lock ⟨enterLoop cfg, page⟩ := by
  revert ok
  unfold enterLoop
  split
  · exact fun ok => .freely free (.time 0) ok rfl rfl (finishes_maybeLoad free _)
  · exact finishes_maybeLoad free _

theorem finishes_subWaiter (backoffIter : Nat) (ok : PageOk cfg ⟨.subWaiter backoffIter, page⟩) :
    Finishes cfg t lock ⟨.subWaiter backoffIter, page⟩ :=
  .freely free .run ok rfl rfl fun ok' => finishes_maybeLoad (by exact free) _ ok'

theorem finishes_addWaiter (backoffIter : Nat) (ok : PageOk cfg ⟨.addWaiter backoffIter, page⟩) :
    Finishes cfg t lock ⟨.addWaiter backoffIter, page⟩ :=
  .freely free .run ok rfl rfl fun ok' =>
    .freely (by exact free) .run ok' rfl (if_neg (not_taken free)) fun ok'' =>
      finishes_subWaiter (by exact free) backoffIter ok''

theorem finishes_afterFailure (loop : LockBaseLoop) (ok : PageOk cfg ⟨afterFailure cfg loop, page⟩) :
    Finishes cfg t lock ⟨afterFailure cfg loop, page⟩ := by
  revert ok
  cases loop with
  | pause iterCount backoffIter =>
      simp only [afterFailure, leavePause]
      split
      · split
        · split
          · exact finishes_maybeLoad free _
          · exact finishes_addWaiter free _
        · exact finishes_maybeLoad free _
      · exact finishes_maybeLoad free _
  | yield iterCount backoffIter =>
      simp only [afterFailure]
      split
      · split
        · exact finishes_addWaiter free _
        · exact finishes_maybeLoad free _
      · exact finishes_maybeLoad free _

theorem finishes_tryLoad (caller : LockBaseCaller) (ok : PageOk cfg ⟨.tryLoad caller, page⟩) :
    Finishes cfg t lock ⟨.tryLoad caller, page⟩ :=
  .freely free .run ok rfl (if_pos (not_taken free)) fun ok' =>
    .freely free .run ok' rfl (if_pos (not_taken free)) fun ok'' => finishes_holding ok''

/-- While the lock is free every thread that is awake can get through. -/
theorem finishes_of_awake (ok : PageOk cfg l) (awake : t ∉ lock.sleepers) :
    Finishes cfg t lock l := by
  rcases l with ⟨pc, page⟩
  cases pc with
  | outside => exact .done rfl
  | tryLoad caller => exact finishes_tryLoad free caller ok
  | tryExchange caller =>
      exact .freely free .run ok rfl (if_pos (not_taken free)) fun ok' => finishes_holding ok'
  | setWatchFor =>
      exact .freely free .run ok rfl rfl fun ok' => .freely free .run ok' rfl rfl (finishes_enterLoop free)
  | setWatchNeq => exact .freely free .run ok rfl rfl (finishes_enterLoop free)
  | readTime => exact .freely free (.time 0) ok rfl rfl (finishes_maybeLoad free _)
  | maybeLoad loop => exact finishes_maybeLoad free loop ok
  | maybeDisarm loop => exact .freely free .run ok rfl rfl (finishes_maybeExchange free loop)
  | maybeExchange loop => exact finishes_maybeExchange free loop ok
  | maybeRearm loop => exact .freely free .run ok rfl rfl (finishes_afterFailure free loop)
  | addWaiter backoffIter => exact finishes_addWaiter free backoffIter ok
  | futexWait backoffIter =>
      exact .freely free .run ok rfl (if_neg (not_taken free)) (finishes_subWaiter free backoffIter)
  | futexSleep backoffIter =>
      exact .freely free .run ok rfl (if_neg awake) (finishes_subWaiter free backoffIter)
  | subWaiter backoffIter => exact finishes_subWaiter free backoffIter ok
  | holding => exact finishes_holding ok
  | unlockStore => exact finishes_unlockStore ok
  | unlockLoadWaiters => exact finishes_unlockLoadWaiters ok
  | unlockWake => exact finishes_unlockWake ok

end free

/-! ## Without the futex nobody sleeps -/

/-- The thread is at none of the places that only the futex leads to. -/
def WaitPlace.spins : WaitPlace -> Bool
  | .apart | .trying => true
  | _ => false

section spinning

theorem spins_enterLoop : (waitPlace (enterLoop cfg)).spins = true := by
  unfold enterLoop restart
  split <;> rfl

theorem spins_failTry (caller : LockBaseCaller) :
    (waitPlace (failTry cfg caller).1).spins = true := by
  cases caller with
  | trylock => rfl
  | lock =>
      simp only [failTry]
      split
      · rfl
      · exact spins_enterLoop

variable (notConfigured : cfg.futex = false)

include notConfigured

omit [DecidableEq Tid]

theorem spins_afterFailure (loop : LockBaseLoop) :
    (waitPlace (afterFailure cfg loop)).spins = true := by
  cases loop with
  | pause iterCount backoffIter =>
      simp only [afterFailure, leavePause, notConfigured, Bool.or_false]
      split
      · split <;> rfl
      · rfl
  | yield iterCount backoffIter =>
      simp only [afterFailure, notConfigured]
      rfl

theorem spins_failMaybe (loop : LockBaseLoop) : (waitPlace (failMaybe cfg loop)).spins = true := by
  unfold failMaybe
  split
  · rfl
  · exact spins_afterFailure notConfigured loop

theorem step_spins [DecidableEq Tid] {action : LockBaseAction Tid}
    (stepped : step cfg t action lock l = some (lock', l', event))
    (spins : (waitPlace l.pc).spins = true) :
    lock'.sleepers = lock.sleepers ∧ (waitPlace l'.pc).spins = true := by
  rcases l with ⟨pc, page⟩
  cases pc <;> cases spins <;> cases action <;> simp only [step, reduceCtorEq] at stepped
  case tryLoad.refl.run caller =>
    split at stepped <;> cases stepped
    · exact ⟨rfl, rfl⟩
    · exact ⟨rfl, spins_failTry caller⟩
  case tryExchange.refl.run caller =>
    split at stepped <;> cases stepped
    · exact ⟨rfl, rfl⟩
    · exact ⟨rfl, spins_failTry caller⟩
  case setWatchNeq.refl.run =>
    cases stepped
    exact ⟨rfl, spins_enterLoop⟩
  case maybeLoad.refl.run loop =>
    split at stepped <;> cases stepped
    · refine ⟨rfl, ?_⟩
      dsimp only
      split <;> rfl
    · exact ⟨rfl, spins_failMaybe notConfigured loop⟩
  case maybeExchange.refl.run loop =>
    split at stepped <;> cases stepped
    · exact ⟨rfl, rfl⟩
    · exact ⟨rfl, spins_failMaybe notConfigured loop⟩
  case maybeRearm.refl.run loop =>
    cases stepped
    exact ⟨rfl, spins_afterFailure notConfigured loop⟩
  case unlockStore.refl.run =>
    simp only [notConfigured, Bool.false_eq_true, if_false] at stepped
    cases stepped
    exact ⟨rfl, rfl⟩
  all_goals
    cases stepped
    exact ⟨rfl, rfl⟩

end spinning

/-! ## Every reachable state -/

/-- While the lock is free somebody who is busy is awake. -/
def SomebodyAwake (cfg : LockBaseConfig)
    (s : Machine Tid (UserLockBase Tid) LockBaseThread) : Prop :=
  s.shared.mem = cfg.unlocked ->
    s.shared.sleepers = [] ∨ exists t, t ∉ s.shared.sleepers ∧ (s.thread t).pc ≠ .outside

theorem nobodyAsleep_of_run (notConfigured : cfg.futex = false)
    {trace : List (Tid × LockBaseEvent)} {s : Machine Tid (UserLockBase Tid) LockBaseThread}
    (run : (system cfg).Run TransitionSystem.unguarded trace s) : s.shared.sleepers = [] := by
  have spinning := run.invariant
    (fun _ s => s.shared.sleepers = [] ∧ forall t, (waitPlace (s.thread t).pc).spins = true) ?_ ?_
  · exact spinning.1
  · rintro ⟨_, thread⟩ ⟨rfl, outside⟩
    refine ⟨rfl, fun t => ?_⟩
    rw [(outside t).1]
    rfl
  · rintro _ s label _ ⟨nobody, spins⟩ moved _
    rcases Program.system_next moved with ⟨action, lock', l', stepped, rfl⟩
    rcases step_spins notConfigured stepped (spins label.1) with ⟨same, spins'⟩
    refine ⟨same.trans nobody, fun u => ?_⟩
    show (waitPlace (Function.update s.thread label.1 l' u).pc).spins = true
    by_cases itself : u = label.1
    · rw [itself, Function.update_self]
      exact spins'
    · rw [Function.update_of_ne itself]
      exact spins u

omit [DecidableEq Tid] in
theorem busy_of_comesBy {trace : List (LockBaseLabel Tid)} {pc : LockBasePc}
    (comes : ComesBy trace t (waitPlace pc)) : pc ≠ .outside := by
  rintro rfl
  rcases comes with pending | ⟨retries, _⟩
  · cases pending
  · cases retries

theorem somebodyAwake_of_run (few : cfg.futex = true -> ENat.card Tid < (2 ^ 32 : Nat))
    {trace : List (Tid × LockBaseEvent)} {s : Machine Tid (UserLockBase Tid) LockBaseThread}
    (run : (system cfg).Run TransitionSystem.unguarded trace s) : SomebodyAwake cfg s := by
  intro free
  cases configured : cfg.futex with
  | false => exact Or.inl (nobodyAsleep_of_run configured run)
  | true =>
      rcases Program.run_recorded run with ⟨records, recorded⟩
      have counted : (recordedSystem cfg).Run countable records s :=
        recorded.weaken fun _ _ _ s' _ =>
          (Set.encard_le_card (s := registeredThreads s')).trans_lt (few configured)
      refine ((attended_of_run configured counted).comesBy free).imp_right ?_
      exact fun ⟨t, awake, comes⟩ => ⟨t, awake, busy_of_comesBy comes⟩

/-- In every reachable state that is not at rest some busy thread can get out alone. -/
theorem somebody_finishes (few : cfg.futex = true -> ENat.card Tid < (2 ^ 32 : Nat))
    (trace : List (Tid × LockBaseEvent)) (s : Machine Tid (UserLockBase Tid) LockBaseThread)
    (run : (system cfg).Run TransitionSystem.unguarded trace s)
    (busy : exists t, (s.thread t).pc ≠ .outside) :
    exists t, (s.thread t).pc ≠ .outside ∧ Finishes cfg t s.shared (s.thread t) := by
  rcases (threadInvariant cfg).run run with ⟨holder, _, word, locals⟩
  rcases word with ⟨free, _⟩ | ⟨_, taken⟩
  · rcases somebodyAwake_of_run few run free with nobody | ⟨t, awake, inside⟩
    · rcases busy with ⟨t, inside⟩
      have awake : t ∉ s.shared.sleepers := by
        rw [nobody]
        exact List.not_mem_nil
      exact ⟨t, inside, finishes_of_awake free (locals t).2 awake⟩
    · exact ⟨t, inside, finishes_of_awake free (locals t).2 awake⟩
  · rcases Option.ne_none_iff_exists'.mp taken with ⟨t, held⟩
    have holds := (locals t).1.mpr held
    refine ⟨t, fun outside => ?_, finishes_of_holdsLock (locals t).2 holds⟩
    rw [outside] at holds
    cases holds

/-- The base lock as the kernel schedules it once no thread begins anything new. -/
abbrev scheduledSystem (Tid : Type) [DecidableEq Tid] (cfg : LockBaseConfig) :=
  ((program Tid cfg).confine scheduled).system (init cfg)

/-- From every reachable state all threads get out of `lock`, `trylock` and
`unlock`, although the kernel holds back whom the pages tell it to and nothing
but an `unlock` ends a sleep.  With the futex there must be fewer than `2 ^ 32`
threads, so that the count of waiters is right. -/
theorem lockBase_comes_to_rest (cfg : LockBaseConfig)
    (few : cfg.futex = true -> ENat.card Tid < (2 ^ 32 : Nat))
    (trace : List (Tid × LockBaseEvent)) (s : Machine Tid (UserLockBase Tid) LockBaseThread)
    (run : (system cfg).Run TransitionSystem.unguarded trace s) :
    exists labels s', (scheduledSystem Tid cfg).Steps s labels s' ∧
      forall t, (s'.thread t).pc = .outside :=
  Program.drains (fun l => l.pc = .outside) (fun _ initial t => (initial.2 t).1)
    (somebody_finishes few) run

/-- One thread holds the lock, and the kernel holds the other one back. -/
theorem lockBase_comes_to_rest_heldBack :
    let cfg : LockBaseConfig := ⟨true, false, false, true, false⟩
    let s := ((program (Fin 2) cfg).play [(0, .callLock), (0, .run), (0, .run), (1, .callLock),
      (1, .run), (1, .run), (1, .run), (1, .run), (1, .run)] (fresh (Fin 2) cfg)).1
    (s.thread 1).page.held s.shared.read = true ∧
      exists labels s', (scheduledSystem (Fin 2) cfg).Steps s labels s' ∧
        forall t, (s'.thread t).pc = .outside := by
  have few : ENat.card (Fin 2) < (2 ^ 32 : Nat) := by
    rw [ENat.card_eq_coe_fintype_card, Fintype.card_fin]
    exact Nat.cast_lt.mpr (by decide)
  exact ⟨rfl, lockBase_comes_to_rest _ (fun _ => few) _ _
    (Program.run_play (fresh_init _) _ (by decide))⟩

end LockBase

end UserLocks
end Autolock
