import Autolock.Concurrency.Futex
import Autolock.UserLocks.LockBase

namespace Autolock
namespace UserLocks

open Concurrency

/-!
# The sleepers of the base lock are woken

A thread goes to sleep only while the word is locked, so that somebody has
still to unlock it and to read the count of waiters, in which the sleeper is
included.  A wake-up takes one thread out of the queue.  That thread is then the
one that everybody else relies on until it takes the lock, and it has been
counted before.
-/

namespace LockBasePc

/-- Between the increment of `waiters` and its decrement. -/
def registered : LockBasePc -> Bool
  | .futexWait _ | .futexSleep _ | .subWaiter _ => true
  | _ => false

/-- The unlocking store has been done, the check of `waiters` or the wake-up has not. -/
def wakePending : LockBasePc -> Bool
  | .unlockLoadWaiters | .unlockWake => true
  | _ => false

end LockBasePc

namespace LockBase

variable {Tid : Type}

/-- The labels of the program with records for events. -/
abbrev LockBaseLabel (Tid : Type) :=
  Tid × StepRecord LockBaseThread (LockBaseAction Tid) LockBaseEvent

/-- The thread has incremented `waiters` and has not been outside since. -/
def WasWaiter (trace : List (LockBaseLabel Tid)) (t : Tid) : Prop :=
  exists before record after backoffIter, trace = before ++ (t, record) :: after ∧
    record.before.pc = .addWaiter backoffIter ∧
    forall label, label ∈ after -> label.1 = t -> label.2.before.pc ≠ .outside

theorem WasWaiter.append {trace : List (LockBaseLabel Tid)} {t : Tid} {label : LockBaseLabel Tid}
    (was : WasWaiter trace t) (inside : label.1 = t -> label.2.before.pc ≠ .outside) :
    WasWaiter (trace ++ [label]) t := by
  rcases was with ⟨before, record, after, backoffIter, rfl, added, since⟩
  refine ⟨before, record, after ++ [label], backoffIter, ?_, added, fun later member => ?_⟩
  · rw [List.append_assoc, List.cons_append]
  · rcases List.mem_append.mp member with old | last
    · exact since later old
    · rw [List.mem_singleton.mp last]
      exact inside

theorem wasWaiter_add (trace : List (LockBaseLabel Tid)) {label : LockBaseLabel Tid}
    {backoffIter : Nat} (added : label.2.before.pc = .addWaiter backoffIter) :
    WasWaiter (trace ++ [label]) label.1 :=
  ⟨trace, label.2, [], backoffIter, rfl, added, fun _ member => nomatch member⟩

/-! ## What one step does -/

/-- Where a thread is, as far as the count, the queue and the wake-up are concerned. -/
inductive WaitPlace where
  | apart
  | trying
  | adding
  | registering
  | sleeping
  | leaving
  | checking
  | waking
  deriving DecidableEq

def waitPlace : LockBasePc -> WaitPlace
  | .outside | .tryLoad _ | .tryExchange _ | .setWatchFor | .setWatchNeq | .readTime => .apart
  | .holding | .unlockStore => .apart
  | .maybeLoad _ | .maybeDisarm _ | .maybeExchange _ | .maybeRearm _ => .trying
  | .addWaiter _ => .adding
  | .futexWait _ => .registering
  | .futexSleep _ => .sleeping
  | .subWaiter _ => .leaving
  | .unlockLoadWaiters => .checking
  | .unlockWake => .waking

namespace WaitPlace

def registered : WaitPlace -> Bool
  | .registering | .sleeping | .leaving => true
  | _ => false

def asleep : WaitPlace -> Bool
  | .sleeping => true
  | _ => false

/-- The thread tries for the lock until it has it. -/
def retries : WaitPlace -> Bool
  | .trying | .adding | .registering | .sleeping | .leaving => true
  | _ => false

def wakePending : WaitPlace -> Bool
  | .checking | .waking => true
  | _ => false

end WaitPlace

theorem registered_waitPlace (pc : LockBasePc) : (waitPlace pc).registered = pc.registered := by
  cases pc <;> rfl

theorem wakePending_waitPlace (pc : LockBasePc) :
    (waitPlace pc).wakePending = pc.wakePending := by
  cases pc <;> rfl

theorem inLockOrTrylock_of_retries {pc : LockBasePc} (retries : (waitPlace pc).retries = true) :
    pc.inLockOrTrylock = true := by
  cases pc <;> first
    | rfl
    | cases retries

theorem exists_addWaiter {pc : LockBasePc} (here : waitPlace pc = .adding) :
    exists backoffIter, pc = .addWaiter backoffIter := by
  cases pc <;> first
    | exact ⟨_, rfl⟩
    | cases here

/-- The kinds of step of a lock that has waiters sleep, with what each does to
the lock and to the place of its thread. -/
inductive QueueEffect [DecidableEq Tid] (cfg : LockBaseConfig) (t : Tid)
    (lock : UserLockBase Tid) : UserLockBase Tid -> WaitPlace -> WaitPlace -> Prop
  | silent (there : WaitPlace) : QueueEffect cfg t lock lock there there
  | begins : QueueEffect cfg t lock lock .apart .trying
  | gives : QueueEffect cfg t lock lock .trying .adding
  | acquires {there : WaitPlace} (tries : there = .apart ∨ there = .trying) :
      QueueEffect cfg t lock { lock with mem := cfg.locked } there .apart
  | registers :
      QueueEffect cfg t lock { lock with waiters := lock.waiters + 1 } .adding .registering
  | sleeps (taken : lock.mem = cfg.locked) :
      QueueEffect cfg t lock { lock with sleepers := lock.sleepers ++ [t] } .registering .sleeping
  | skips : QueueEffect cfg t lock lock .registering .leaving
  | awakes (awake : t ∉ lock.sleepers) : QueueEffect cfg t lock lock .sleeping .leaving
  | interrupted :
      QueueEffect cfg t lock { lock with sleepers := lock.sleepers.erase t } .sleeping .leaving
  | leaves : QueueEffect cfg t lock { lock with waiters := lock.waiters - 1 } .leaving .trying
  | unlocks : QueueEffect cfg t lock { lock with mem := cfg.unlocked } .apart .checking
  | seesNobody (none : lock.waiters = 0) : QueueEffect cfg t lock lock .checking .apart
  | seesWaiters : QueueEffect cfg t lock lock .checking .waking
  | wakes {woken : Tid} (asleep : woken ∈ lock.sleepers) :
      QueueEffect cfg t lock { lock with sleepers := lock.sleepers.erase woken } .waking .apart
  | wakesNobody (nobody : lock.sleepers = []) : QueueEffect cfg t lock lock .waking .apart

section effect

variable [DecidableEq Tid] {cfg : LockBaseConfig} {t : Tid} {lock : UserLockBase Tid}

theorem queueEffect_enterLoop :
    QueueEffect cfg t lock lock .apart (waitPlace (enterLoop cfg)) := by
  unfold enterLoop restart
  split
  · exact .silent _
  · exact .begins

theorem queueEffect_afterFailure (loop : LockBaseLoop) :
    QueueEffect cfg t lock lock .trying (waitPlace (afterFailure cfg loop)) := by
  cases loop <;> simp only [afterFailure, leavePause] <;> repeat' split
  all_goals first
    | exact .silent _
    | exact .gives

theorem queueEffect_failMaybe (loop : LockBaseLoop) :
    QueueEffect cfg t lock lock .trying (waitPlace (failMaybe cfg loop)) := by
  unfold failMaybe
  split
  · exact .silent _
  · exact queueEffect_afterFailure loop

theorem queueEffect_failTry (caller : LockBaseCaller) :
    QueueEffect cfg t lock lock .apart (waitPlace (failTry cfg caller).1) := by
  cases caller with
  | trylock => exact .silent _
  | lock =>
      simp only [failTry]
      split
      · exact .silent _
      · exact queueEffect_enterLoop

omit [DecidableEq Tid] in
/-- A failed exchange writes the value that was there. -/
theorem exchange_taken (taken : ¬lock.mem ≠ cfg.locked) : { lock with mem := cfg.locked } = lock := by
  rw [← not_not.mp taken]

theorem step_queueEffect (configured : cfg.futex = true) {action : LockBaseAction Tid}
    {lock' : UserLockBase Tid} {l l' : LockBaseThread} {event : LockBaseEvent}
    (stepped : step cfg t action lock l = some (lock', l', event)) :
    QueueEffect cfg t lock lock' (waitPlace l.pc) (waitPlace l'.pc) := by
  rcases l with ⟨pc, page⟩
  cases pc <;> cases action <;> simp only [step, reduceCtorEq] at stepped
  case outside.elsewhere | outside.callLock | outside.callTrylock | holding.callUnlock =>
    cases stepped
    exact .silent _
  case tryLoad.run caller =>
    split at stepped <;> cases stepped
    · exact .silent _
    · exact queueEffect_failTry caller
  case tryExchange.run caller =>
    split at stepped <;> cases stepped
    · exact .acquires (Or.inl rfl)
    · next taken =>
        rw [exchange_taken taken]
        exact queueEffect_failTry caller
  case setWatchFor.run =>
    cases stepped
    exact .silent _
  case setWatchNeq.run =>
    cases stepped
    exact queueEffect_enterLoop
  case readTime.time =>
    cases stepped
    exact .begins
  case maybeLoad.run loop =>
    split at stepped <;> cases stepped
    · split <;> exact .silent _
    · exact queueEffect_failMaybe loop
  case maybeDisarm.run =>
    cases stepped
    exact .silent _
  case maybeExchange.run loop =>
    split at stepped <;> cases stepped
    · exact .acquires (Or.inr rfl)
    · next taken =>
        rw [exchange_taken taken]
        exact queueEffect_failMaybe loop
  case maybeRearm.run loop =>
    cases stepped
    exact queueEffect_afterFailure loop
  case addWaiter.run =>
    cases stepped
    exact .registers
  case futexWait.run =>
    split at stepped <;> cases stepped
    · next taken => exact .sleeps taken
    · exact .skips
  case futexWait.interrupted =>
    cases stepped
    exact .skips
  case futexSleep.run =>
    split at stepped <;> cases stepped
    next awake => exact .awakes awake
  case futexSleep.interrupted =>
    cases stepped
    exact .interrupted
  case subWaiter.run =>
    cases stepped
    exact .leaves
  case unlockStore.run =>
    rw [if_pos configured] at stepped
    cases stepped
    exact .unlocks
  case unlockLoadWaiters.run =>
    split at stepped <;> cases stepped
    · exact .seesWaiters
    · next none => exact .seesNobody (not_not.mp none)
  case unlockWake.wake woken =>
    cases woken <;> simp only at stepped <;> split at stepped <;> cases stepped
    · next nobody => exact .wakesNobody nobody
    · next asleep => exact .wakes asleep

end effect

/-! ## Somebody is awake for the sleepers -/

/-- The thread will come by: as an unlocker that has still to look for sleepers,
or as a former sleeper that tries for the lock. -/
def ComesBy (trace : List (LockBaseLabel Tid)) (t : Tid) (there : WaitPlace) : Prop :=
  there.wakePending = true ∨ (there.retries = true ∧ WasWaiter trace t)

/-- The count and the queue are right, whoever is counted has been through the
increment, and a free lock with sleepers is on somebody's way. -/
structure Attended (cfg : LockBaseConfig) (trace : List (LockBaseLabel Tid))
    (lock : UserLockBase Tid) (places : Tid -> WaitPlace) : Prop where
  queue : FutexQueue WaitPlace.registered WaitPlace.asleep lock.sleepers lock.waiters places
  waited : forall t, (places t).registered = true -> WasWaiter trace t
  comesBy : lock.mem = cfg.unlocked -> lock.sleepers = [] ∨
    exists t, t ∉ lock.sleepers ∧ ComesBy trace t (places t)

section attended

variable [DecidableEq Tid] {cfg : LockBaseConfig} {t : Tid} {lock lock' : UserLockBase Tid}
  {places : Tid -> WaitPlace} {there' : WaitPlace}

theorem QueueEffect.queue (effect : QueueEffect cfg t lock lock' (places t) there')
    (queue : FutexQueue WaitPlace.registered WaitPlace.asleep lock.sleepers lock.waiters places)
    (fits : (population (fun there : WaitPlace => there.registered = true)
      (Function.update places t there')).encard < (2 ^ 32 : Nat)) :
    FutexQueue WaitPlace.registered WaitPlace.asleep lock'.sleepers lock'.waiters
      (Function.update places t there') := by
  generalize here : places t = there at effect
  have awake : there.asleep = false -> t ∉ lock.sleepers :=
    fun notAsleep => queue.not_mem (by rw [here]; exact notAsleep)
  cases effect with
  | silent =>
      rw [← here, Function.update_eq_self]
      exact queue
  | acquires tries =>
      refine queue.move (.refl _) (awake ?_) ?_
      · rcases tries with rfl | rfl <;> rfl
      · rw [here]
        rcases tries with rfl | rfl <;> rfl
  | registers => exact queue.register (awake rfl) (by rw [here]; rfl) rfl fits
  | leaves => exact queue.deregister (awake rfl) (by rw [here]; rfl) rfl
  | sleeps taken => exact queue.sleep (awake rfl) rfl (by rw [here]; rfl)
  | interrupted =>
      exact queue.move List.erase_sublist queue.nodup.not_mem_erase (by rw [here]; rfl)
  | awakes gone => exact queue.move (.refl _) gone (by rw [here]; rfl)
  | wakes asleep =>
      exact queue.move List.erase_sublist
        (fun still => awake rfl (List.mem_of_mem_erase still)) (by rw [here]; rfl)
  | begins | gives | skips | unlocks | seesNobody | seesWaiters | wakesNobody =>
      exact queue.move (.refl _) (awake rfl) (by rw [here]; rfl)

/-- Only the increment registers a thread, and whoever is registered is not outside. -/
theorem QueueEffect.waited (effect : QueueEffect cfg t lock lock' (places t) there')
    {trace : List (LockBaseLabel Tid)} {label : LockBaseLabel Tid} (mover : label.1 = t)
    (here : waitPlace label.2.before.pc = places t)
    (waited : forall u, (places u).registered = true -> WasWaiter trace u) (u : Tid)
    (registered : (Function.update places t there' u).registered = true) :
    WasWaiter (trace ++ [label]) u := by
  by_cases itself : u = t
  · subst itself
    rw [Function.update_self] at registered
    generalize before : places u = there at effect
    have still : there.registered = true -> WasWaiter (trace ++ [label]) u := by
      intro was
      refine (waited u (by rw [before]; exact was)).append fun _ outside => ?_
      rw [outside, before] at here
      rw [← here] at was
      cases was
    cases effect with
    | silent => exact still registered
    | registers =>
        rcases exists_addWaiter (here.trans before) with ⟨backoffIter, added⟩
        rw [← mover]
        exact wasWaiter_add trace added
    | sleeps | skips | awakes | interrupted => exact still rfl
    | begins | gives | acquires | leaves | unlocks | seesNobody | seesWaiters | wakes |
        wakesNobody => cases registered
  · rw [Function.update_of_ne itself] at registered
    exact (waited u registered).append fun same => absurd (same.symm.trans mover) itself

/-- Whoever comes by still does after a step that leaves the word and the queue
alone and does not make its own thread stop. -/
theorem Attended.keep {trace : List (LockBaseLabel Tid)} {label : LockBaseLabel Tid}
    (attended : Attended cfg trace lock places) (after : WaitPlace) (mover : label.1 = t)
    (here : waitPlace label.2.before.pc = places t)
    (retries : (places t).retries = true -> after.retries = true)
    (pending : (places t).wakePending = true -> after.wakePending = true)
    (free : lock.mem = cfg.unlocked) :
    lock.sleepers = [] ∨ exists u, u ∉ lock.sleepers ∧
      ComesBy (trace ++ [label]) u (Function.update places t after u) := by
  refine (attended.comesBy free).imp_right fun ⟨u, awake, comes⟩ => ⟨u, awake, ?_⟩
  by_cases same : u = t
  · subst same
    rw [Function.update_self]
    refine comes.imp pending fun ⟨retried, was⟩ => ⟨retries retried, was.append ?_⟩
    intro _ outside
    rw [outside] at here
    rw [← here] at retried
    cases retried
  · rw [Function.update_of_ne same]
    exact comes.imp_right fun ⟨retried, was⟩ =>
      ⟨retried, was.append fun moved => absurd (moved.symm.trans mover) same⟩

theorem QueueEffect.comesBy (effect : QueueEffect cfg t lock lock' (places t) there')
    {trace : List (LockBaseLabel Tid)} {label : LockBaseLabel Tid} (mover : label.1 = t)
    (here : waitPlace label.2.before.pc = places t) (attended : Attended cfg trace lock places)
    (waited : forall u, (Function.update places t there' u).registered = true ->
      WasWaiter (trace ++ [label]) u)
    (free : lock'.mem = cfg.unlocked) :
    lock'.sleepers = [] ∨ exists u, u ∉ lock'.sleepers ∧
      ComesBy (trace ++ [label]) u (Function.update places t there' u) := by
  have kept := attended.keep there' mover here
  generalize before : places t = there at effect kept
  have awake : there.asleep = false -> t ∉ lock.sleepers :=
    fun notAsleep => attended.queue.not_mem (by rw [before]; exact notAsleep)
  have itself : t ∉ lock'.sleepers -> ComesBy (trace ++ [label]) t there' ->
      exists u, u ∉ lock'.sleepers ∧
        ComesBy (trace ++ [label]) u (Function.update places t there' u) :=
    fun awake comes => ⟨t, awake, by rwa [Function.update_self]⟩
  have locked : cfg.locked ≠ cfg.unlocked := by
    unfold LockBaseConfig.locked LockBaseConfig.unlocked
    split <;> decide
  cases effect with
  | silent => exact kept id id free
  | begins | gives | registers | skips | awakes | leaves | seesWaiters =>
      exact kept (by decide) (by decide) free
  -- The lock is taken.
  | acquires => exact absurd free locked
  | sleeps taken => exact absurd (taken.symm.trans free) locked
  | seesNobody none =>
      have queue := attended.queue
      rw [none] at queue
      refine Or.inl (queue.nobody fun there => ?_)
      cases there <;> decide
  | wakesNobody nobody => exact Or.inl nobody
  | unlocks => exact Or.inr (itself (awake rfl) (Or.inl rfl))
  | @wakes woken asleep =>
      -- The thread that is woken has been counted, and comes by from now on.
      have different : woken ≠ t := fun same => awake rfl (same ▸ asleep)
      have sleeping := attended.queue.asleep woken asleep
      have registered : (Function.update places t .apart woken).registered = true := by
        rw [Function.update_of_ne different]
        revert sleeping
        cases places woken <;> decide
      refine Or.inr ⟨woken, attended.queue.nodup.not_mem_erase,
        Or.inr ⟨?_, waited woken registered⟩⟩
      revert registered
      cases Function.update places t .apart woken <;> decide
  | interrupted =>
      refine Or.inr (itself attended.queue.nodup.not_mem_erase (Or.inr ⟨rfl, waited t ?_⟩))
      rw [Function.update_self]
      rfl

theorem QueueEffect.attended (effect : QueueEffect cfg t lock lock' (places t) there')
    {trace : List (LockBaseLabel Tid)} {label : LockBaseLabel Tid} (mover : label.1 = t)
    (here : waitPlace label.2.before.pc = places t) (attended : Attended cfg trace lock places)
    (fits : (population (fun there : WaitPlace => there.registered = true)
      (Function.update places t there')).encard < (2 ^ 32 : Nat)) :
    Attended cfg (trace ++ [label]) lock' (Function.update places t there') where
  queue := effect.queue attended.queue fits
  waited := effect.waited mover here attended.waited
  comesBy := effect.comesBy mover here attended (effect.waited mover here attended.waited)

end attended

/-! ## Every run -/

section runs

variable [DecidableEq Tid] {cfg : LockBaseConfig}

/-- The threads between the increment of `waiters` and its decrement. -/
def registeredThreads (s : Machine Tid (UserLockBase Tid) LockBaseThread) : Set Tid :=
  population (fun l : LockBaseThread => l.pc.registered = true) s.thread

/-- Runs in which fewer than `2 ^ 32` threads are registered at once. -/
def countable : TransitionSystem.Guard (Machine Tid (UserLockBase Tid) LockBaseThread)
    (LockBaseLabel Tid) :=
  fun _ _ _ s' => (registeredThreads s').encard < (2 ^ 32 : Nat)

/-- The base lock with all that a step shows of its thread. -/
abbrev recordedSystem (cfg : LockBaseConfig) :=
  (program Tid cfg).recorded.system (init cfg)

def waitPlaces (s : Machine Tid (UserLockBase Tid) LockBaseThread) : Tid -> WaitPlace :=
  fun t => waitPlace (s.thread t).pc

theorem waitPlaces_update (s : Machine Tid (UserLockBase Tid) LockBaseThread)
    (lock' : UserLockBase Tid) (t : Tid) (l' : LockBaseThread) :
    waitPlaces ⟨lock', Function.update s.thread t l'⟩ =
      Function.update (waitPlaces s) t (waitPlace l'.pc) :=
  Function.comp_update (fun l : LockBaseThread => waitPlace l.pc) s.thread t l'

omit [DecidableEq Tid] in
theorem population_waitPlaces (s : Machine Tid (UserLockBase Tid) LockBaseThread) :
    population (fun there : WaitPlace => there.registered = true) (waitPlaces s) =
      registeredThreads s := by
  ext t
  show (waitPlace (s.thread t).pc).registered = true <-> (s.thread t).pc.registered = true
  rw [registered_waitPlace]

theorem attended_of_run (configured : cfg.futex = true) {trace : List (LockBaseLabel Tid)}
    {s : Machine Tid (UserLockBase Tid) LockBaseThread}
    (run : (recordedSystem cfg).Run countable trace s) :
    Attended cfg trace s.shared (waitPlaces s) := by
  refine run.invariant (fun trace s => Attended cfg trace s.shared (waitPlaces s)) ?_ ?_
  · rintro ⟨_, thread⟩ ⟨rfl, outside⟩
    have apart : forall t, waitPlace (thread t).pc = .apart := by
      intro t
      rw [(outside t).1]
      rfl
    refine ⟨futexQueue_empty fun t => ?_, fun t registered => ?_, fun _ => Or.inl rfl⟩
    · show (waitPlace (thread t).pc).registered = false
      rw [apart t]
      rfl
    · change (waitPlace (thread t).pc).registered = true at registered
      rw [apart t] at registered
      cases registered
  · intro trace s label s' attended moved fits
    rcases Program.recorded_next moved with ⟨lock', stepped, before, rfl⟩
    have effect := step_queueEffect configured stepped
    rw [countable, ← population_waitPlaces, waitPlaces_update] at fits
    rw [waitPlaces_update]
    refine effect.attended rfl ?_ attended fits
    rw [before]
    rfl

/-- Some unlocker has still to check `waiters` or to wake, or a thread other than
`t` that was a waiter is awake and tries for the lock. -/
def WakeupDue (trace : List (LockBaseLabel Tid))
    (s : Machine Tid (UserLockBase Tid) LockBaseThread) (t : Tid) : Prop :=
  (exists u, (s.thread u).pc.wakePending = true) ∨
    exists u, u ≠ t ∧ WasWaiter trace u ∧ u ∉ s.shared.sleepers ∧
      (s.thread u).pc.inLockOrTrylock = true

/-- When the word is unlocked, a wake-up of each sleeper is due.  `waiters` is
the number of registered threads, so that it is not zero at a decrement. -/
theorem no_lost_wakeup (configured : cfg.futex = true) {trace : List (LockBaseLabel Tid)}
    {s : Machine Tid (UserLockBase Tid) LockBaseThread}
    (run : (recordedSystem cfg).Run countable trace s) :
    (s.shared.mem = cfg.unlocked -> forall t, t ∈ s.shared.sleepers -> WakeupDue trace s t) ∧
    (registeredThreads s).encard = s.shared.waiters.toNat ∧
    forall t backoffIter, (s.thread t).pc = .subWaiter backoffIter -> s.shared.waiters ≠ 0 := by
  have attended := attended_of_run configured run
  refine ⟨fun free t asleep => ?_, ?_, fun t backoffIter here none => ?_⟩
  · rcases attended.comesBy free with nobody | ⟨u, awake, pending | ⟨retries, was⟩⟩
    · rw [nobody] at asleep
      cases asleep
    · exact Or.inl ⟨u, (wakePending_waitPlace _).symm.trans pending⟩
    · exact Or.inr ⟨u, fun same => awake (same ▸ asleep), was, awake,
        inLockOrTrylock_of_retries retries⟩
  · rw [← population_waitPlaces]
    exact attended.queue.counts
  · have counts := attended.queue.counts
    rw [none] at counts
    refine counts.zero t ?_
    show (waitPlace (s.thread t).pc).registered = true
    rw [here]
    rfl

end runs

/-! ## Threads that go to sleep one after the other -/

/-- Only the futex: no autolock, no yielding, no backoff. -/
def sleepyConfig : LockBaseConfig := ⟨false, false, false, true, false⟩

section sleepy

variable [DecidableEq Tid] (t : Tid) (page : KernelAutolockAbi LockBaseWord) (waiters : UInt32)
  (sleepers : List Tid)

theorem solo_acquire : exists events,
    (program Tid sleepyConfig).Solo t ⟨sleepyConfig.unlocked, waiters, sleepers⟩ ⟨.outside, page⟩
      events ⟨sleepyConfig.locked, waiters, sleepers⟩ ⟨.holding, page⟩ :=
  ⟨_, .cons .callLock rfl (.cons .run rfl (.cons .run rfl (.refl _ _)))⟩

/-- The waiting loop gives up, here after `n + 1` rounds. -/
theorem solo_pause (n : Nat) : exists events,
    (program Tid sleepyConfig).Solo t ⟨sleepyConfig.locked, waiters, sleepers⟩
      ⟨.maybeLoad (.pause (n - LockBaseConfig.pauseIters) 0), page⟩ events
      ⟨sleepyConfig.locked, waiters, sleepers⟩ ⟨.addWaiter 0, page⟩ := by
  induction n with
  | zero => exact ⟨_, .cons .run rfl (.refl _ _)⟩
  | succ n inductionHypothesis =>
      rcases inductionHypothesis with ⟨events, rest⟩
      have again : afterFailure sleepyConfig (.pause ((n + 1 : Nat) - LockBaseConfig.pauseIters) 0) =
          .maybeLoad (.pause (n - LockBaseConfig.pauseIters) 0) := by
        have next : ((n + 1 : Nat) : Int) - LockBaseConfig.pauseIters - 1 =
            n - LockBaseConfig.pauseIters := by omega
        have goesOn : ¬((n : Int) - LockBaseConfig.pauseIters < -LockBaseConfig.pauseIters) := by
          omega
        simp only [afterFailure, next, if_neg goesOn]
        rfl
      have first : (program Tid sleepyConfig).step t .run
          ⟨sleepyConfig.locked, waiters, sleepers⟩
          ⟨.maybeLoad (.pause ((n + 1 : Nat) - LockBaseConfig.pauseIters) 0), page⟩ =
          some (⟨sleepyConfig.locked, waiters, sleepers⟩,
            ⟨.maybeLoad (.pause (n - LockBaseConfig.pauseIters) 0), page⟩, .internal) := by
        rw [← again]
        rfl
      exact ⟨_, .cons .run first rest⟩

/-- A thread that finds the lock taken ends up asleep. -/
theorem solo_sleep : exists events,
    (program Tid sleepyConfig).Solo t ⟨sleepyConfig.locked, waiters, sleepers⟩ ⟨.outside, page⟩
      events ⟨sleepyConfig.locked, waiters + 1, sleepers ++ [t]⟩ ⟨.futexSleep 0, page⟩ := by
  have enters : (program Tid sleepyConfig).Solo t ⟨sleepyConfig.locked, waiters, sleepers⟩
      ⟨.outside, page⟩ _ ⟨sleepyConfig.locked, waiters, sleepers⟩
      ⟨.maybeLoad (.pause 0 0), page⟩ := .cons .callLock rfl (.cons .run rfl (.refl _ _))
  have leaves : (program Tid sleepyConfig).Solo t ⟨sleepyConfig.locked, waiters, sleepers⟩
      ⟨.addWaiter 0, page⟩ _ ⟨sleepyConfig.locked, waiters + 1, sleepers ++ [t]⟩
      ⟨.futexSleep 0, page⟩ := .cons .run rfl (.cons .run rfl (.refl _ _))
  rcases solo_pause t page waiters sleepers 128 with ⟨events, pauses⟩
  exact ⟨_, (enters.append pauses).append leaves⟩

/-- An `unlock` that sees no waiters. -/
theorem solo_unlock : exists events,
    (program Tid sleepyConfig).Solo t ⟨sleepyConfig.locked, 0, sleepers⟩ ⟨.holding, page⟩
      events ⟨sleepyConfig.unlocked, 0, sleepers⟩ ⟨.outside, page⟩ :=
  ⟨_, .cons .callUnlock rfl (.cons .run rfl (.cons .run rfl (.refl _ _)))⟩

end sleepy

/-- Two threads sleep, and the `unlock` that wakes one of them has returned. -/
theorem no_lost_wakeup_afterWake : exists trace s,
    (recordedSystem sleepyConfig).Run countable trace s ∧ s.shared.mem = sleepyConfig.unlocked ∧
      s.shared.sleepers = [(2 : Fin 3)] ∧ WakeupDue trace s 2 ∧
      (registeredThreads s).encard = s.shared.waiters.toNat := by
  have start : (system sleepyConfig).Run TransitionSystem.unguarded [] (fresh (Fin 3) sleepyConfig) :=
    .start (fresh_init sleepyConfig)
  rcases solo_acquire (0 : Fin 3) ⟨none, 0, 0⟩ 0 [] with ⟨_, acquires⟩
  rcases solo_sleep (1 : Fin 3) ⟨none, 0, 0⟩ 0 [] with ⟨_, sleeps⟩
  rcases solo_sleep (2 : Fin 3) ⟨none, 0, 0⟩ 1 [1] with ⟨_, sleeps'⟩
  have unlocks : (program (Fin 3) sleepyConfig).Solo 0 ⟨sleepyConfig.locked, 2, [1, 2]⟩
      ⟨.holding, ⟨none, 0, 0⟩⟩ _ ⟨sleepyConfig.unlocked, 2, [2]⟩ ⟨.outside, ⟨none, 0, 0⟩⟩ :=
    .cons .callUnlock rfl (.cons .run rfl (.cons .run rfl (.cons (.wake (some 1)) rfl (.refl _ _))))
  have run := unlocks.run rfl (sleeps'.run rfl (sleeps.run rfl (acquires.run rfl start)))
  rcases Program.run_recorded run with ⟨trace, recorded⟩
  have guarded : (recordedSystem sleepyConfig).Run countable trace _ :=
    recorded.weaken fun _ _ _ _ _ => encard_lt_of_card (by decide) _
  rcases no_lost_wakeup rfl guarded with ⟨due, counts, _⟩
  exact ⟨trace, _, guarded, rfl, rfl, due rfl 2 (List.mem_singleton.mpr rfl), counts⟩

/-- Thread 0 has the lock and the threads `1` to `n` are asleep. -/
def crowd (n : Nat) : Machine Nat (UserLockBase Nat) LockBaseThread where
  shared := ⟨sleepyConfig.locked, UInt32.ofNat n, List.range' 1 n⟩
  thread := fun t =>
    ⟨if t = 0 then .holding else if t ≤ n then .futexSleep 0 else .outside, ⟨none, 0, 0⟩⟩

theorem crowd_zero : crowd 0 = ⟨⟨sleepyConfig.locked, 0, []⟩,
    Function.update (fresh Nat sleepyConfig).thread 0 ⟨.holding, ⟨none, 0, 0⟩⟩⟩ := by
  simp only [crowd, Machine.mk.injEq]
  refine ⟨rfl, ?_⟩
  funext t
  by_cases first : t = 0 <;> simp [first, fresh, Function.update]

/-- One more thread goes to sleep. -/
theorem crowd_succ (n : Nat) : crowd (n + 1) =
    ⟨⟨sleepyConfig.locked, UInt32.ofNat n + 1, List.range' 1 n ++ [n + 1]⟩,
      Function.update (crowd n).thread (n + 1) ⟨.futexSleep 0, ⟨none, 0, 0⟩⟩⟩ := by
  simp only [crowd, Machine.mk.injEq, UserLockBase.mk.injEq, true_and]
  refine ⟨⟨UInt32.ofNat_add .., ?_⟩, ?_⟩
  · rw [List.range'_1_concat, Nat.add_comm]
  · funext t
    by_cases last : t = n + 1
    · simp [last]
    · have same : t ≤ n + 1 <-> t ≤ n := by omega
      simp [Function.update_of_ne last, same]

theorem run_crowd (n : Nat) : exists trace,
    (system sleepyConfig).Run TransitionSystem.unguarded trace (crowd n) := by
  induction n with
  | zero =>
      rcases solo_acquire 0 ⟨none, 0, 0⟩ 0 [] with ⟨events, acquires⟩
      have start : (system sleepyConfig).Run TransitionSystem.unguarded [] (fresh Nat sleepyConfig) :=
        .start (fresh_init sleepyConfig)
      rw [crowd_zero]
      exact ⟨_, acquires.run rfl start⟩
  | succ n inductionHypothesis =>
      rcases inductionHypothesis with ⟨trace, run⟩
      rcases solo_sleep (n + 1) ⟨none, 0, 0⟩ (UInt32.ofNat n) (List.range' 1 n) with
        ⟨events, sleeps⟩
      have here : (crowd n).thread (n + 1) = ⟨.outside, ⟨none, 0, 0⟩⟩ := by simp [crowd]
      rw [crowd_succ]
      exact ⟨_, sleeps.run here run⟩

/-- `2 ^ 32` sleepers are counted as none, and the `unlock` wakes nobody. -/
theorem all_asleep : exists (trace : List (LockBaseLabel Nat)) (s : Machine Nat _ _),
    (recordedSystem sleepyConfig).Run TransitionSystem.unguarded trace s ∧
      s.shared.mem = sleepyConfig.unlocked ∧ 1 ∈ s.shared.sleepers ∧
      ¬WakeupDue trace s 1 ∧
      (registeredThreads s).encard ≠ s.shared.waiters.toNat := by
  have wraps : UInt32.ofNat (2 ^ 32) = 0 := by decide
  generalize count : 2 ^ 32 = n at wraps
  have positive : 1 ≤ n := by omega
  rcases run_crowd n with ⟨trace, run⟩
  rcases solo_unlock 0 ⟨none, 0, 0⟩ (List.range' 1 n) with ⟨events, unlocks⟩
  have uncounted : crowd n = ⟨⟨sleepyConfig.locked, 0, List.range' 1 n⟩, (crowd n).thread⟩ := by
    rw [← wraps]
    rfl
  rw [uncounted] at run
  rcases Program.run_recorded (unlocks.run rfl run) with ⟨records, recorded⟩
  have thread : forall t, (Function.update (crowd n).thread 0 ⟨.outside, ⟨none, 0, 0⟩⟩ t).pc =
      if t ≠ 0 ∧ t ≤ n then .futexSleep 0 else .outside := by
    intro t
    by_cases first : t = 0 <;> simp [first, crowd]
  have first : 1 ∈ List.range' 1 n := by
    rw [List.mem_range'_1]
    omega
  refine ⟨records, _, recorded, rfl, first, ?_, ?_⟩
  · rintro (⟨t, pending⟩ | ⟨t, _, _, awake, inside⟩)
    · simp only [thread] at pending
      split at pending <;> cases pending
    · simp only [thread] at inside
      split at inside
      · next asleep =>
          refine awake (List.mem_range'_1.mpr ?_)
          omega
      · cases inside
  · intro counts
    refine Counts.zero counts 1 ?_
    show (Function.update (crowd n).thread 0 ⟨.outside, ⟨none, 0, 0⟩⟩ 1).pc.registered = true
    rw [thread, if_pos ⟨by decide, positive⟩]
    rfl

end LockBase

end UserLocks
end Autolock
