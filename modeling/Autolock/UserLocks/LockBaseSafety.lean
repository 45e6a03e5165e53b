import Autolock.UserLocks.LockBase

namespace Autolock
namespace UserLocks

open Concurrency

/-!
# Safety of the base lock in every configuration

The lock word alone decides who may enter: it is unlocked exactly when nobody
holds the lock.  The shared page is governed by the program counter: outside
the waiting loops it is disarmed, and inside them, when autolock is
configured, the expected value and the polarity are in place before the
address is ever stored.  So an armed page only ever says "run me when the
word is unlocked".
-/

namespace LockBase

variable {Tid : Type}

/-- The page may be armed by a single store: what it would then wait for is right. -/
def Armable (cfg : LockBaseConfig) (page : KernelAutolockAbi LockBaseWord) : Prop :=
  (cfg.autolock = true -> page.watchFor = cfg.unlocked ∧ page.watchNeq = 0) ∧
    (cfg.autolock = false -> page.watchMem = none)

/-- What the page of a thread contains at each program counter. -/
def PageOk (cfg : LockBaseConfig) (l : LockBaseThread) : Prop :=
  match l.pc with
  | .setWatchNeq =>
      cfg.autolock = true ∧ l.page.watchMem = none ∧ l.page.watchFor = cfg.unlocked
  | .setWatchFor => cfg.autolock = true ∧ l.page.watchMem = none
  | .readTime | .maybeExchange _ => l.page.watchMem = none ∧ Armable cfg l.page
  | .maybeDisarm _ | .maybeRearm _ => cfg.autolock = true ∧ Armable cfg l.page
  | .maybeLoad _ | .addWaiter _ | .futexWait _ | .futexSleep _ | .subWaiter _ =>
      Armable cfg l.page
  | _ => l.page.watchMem = none

/-! ## Control flow between the loops -/

section controlFlow

variable {cfg : LockBaseConfig} {page : KernelAutolockAbi LockBaseWord}

theorem pageOk_enterLoop (disarmed : page.watchMem = none) (armable : Armable cfg page) :
    PageOk cfg ⟨enterLoop cfg, page⟩ := by
  unfold enterLoop restart
  split
  · exact ⟨disarmed, armable⟩
  · exact armable

theorem pageOk_leavePause (armable : Armable cfg page) (iterCount : Int) (backoffIter : Nat) :
    PageOk cfg ⟨leavePause cfg iterCount backoffIter, page⟩ := by
  unfold leavePause
  split <;> exact armable

theorem pageOk_afterFailure (armable : Armable cfg page) (loop : LockBaseLoop) :
    PageOk cfg ⟨afterFailure cfg loop, page⟩ := by
  cases loop with
  | pause iterCount backoffIter =>
      simp only [afterFailure]
      split
      · split
        · exact pageOk_leavePause armable _ _
        · exact armable
      · exact armable
  | yield iterCount backoffIter =>
      simp only [afterFailure]
      split
      · split <;> exact armable
      · exact armable

theorem pageOk_failMaybe (armable : Armable cfg page) (loop : LockBaseLoop) :
    PageOk cfg ⟨failMaybe cfg loop, page⟩ := by
  unfold failMaybe
  split
  · next configured => exact ⟨configured, armable⟩
  · exact pageOk_afterFailure armable loop

theorem pageOk_failTry (disarmed : page.watchMem = none) (caller : LockBaseCaller) :
    PageOk cfg ⟨(failTry cfg caller).1, page⟩ := by
  cases caller with
  | trylock => exact disarmed
  | lock =>
      simp only [failTry]
      split
      · next configured => exact ⟨configured, disarmed⟩
      · next notConfigured =>
          refine pageOk_enterLoop disarmed ⟨fun configured => ?_, fun _ => disarmed⟩
          exact absurd configured notConfigured

@[simp] theorem holdsLock_enterLoop : (enterLoop cfg).holdsLock = false := by
  unfold enterLoop restart
  split <;> rfl

@[simp] theorem holdsLock_leavePause (iterCount : Int) (backoffIter : Nat) :
    (leavePause cfg iterCount backoffIter).holdsLock = false := by
  unfold leavePause
  split <;> rfl

@[simp] theorem holdsLock_afterFailure (loop : LockBaseLoop) :
    (afterFailure cfg loop).holdsLock = false := by
  cases loop <;> simp only [afterFailure] <;> repeat' split
  all_goals first | rfl | exact holdsLock_leavePause _ _

@[simp] theorem holdsLock_failMaybe (loop : LockBaseLoop) :
    (failMaybe cfg loop).holdsLock = false := by
  unfold failMaybe
  split
  · rfl
  · exact holdsLock_afterFailure loop

@[simp] theorem holdsLock_failTry (caller : LockBaseCaller) :
    (failTry cfg caller).1.holdsLock = false := by
  cases caller with
  | trylock => rfl
  | lock =>
      simp only [failTry]
      split
      · rfl
      · exact holdsLock_enterLoop

@[simp] theorem observe_failTry (t : Tid) (caller : LockBaseCaller) :
    observe (t, (failTry cfg caller).2) = [] := by
  cases caller <;> rfl

@[simp] theorem observe_succeedTry (t : Tid) (caller : LockBaseCaller) :
    observe (t, succeedTry caller) = [.acquire t] := by
  cases caller <;> rfl

end controlFlow

/-! ## What one step does -/

/-- The three kinds of step: one that neither changes the word nor who holds
the lock, one that takes the free lock, and one that gives it back. -/
inductive StepEffect (cfg : LockBaseConfig) (t : Tid) (lock lock' : UserLockBase Tid)
    (l l' : LockBaseThread) (event : LockBaseEvent) : Prop
  | silent (word : lock'.mem = lock.mem) (unseen : observe (t, event) = [])
      (same : l'.pc.holdsLock = l.pc.holdsLock)
  | acquires (free : lock.mem ≠ cfg.locked) (word : lock'.mem = cfg.locked)
      (seen : observe (t, event) = [.acquire t]) (before : l.pc.holdsLock = false)
      (after : l'.pc.holdsLock = true)
  | releases (word : lock'.mem = cfg.unlocked) (seen : observe (t, event) = [.release t])
      (before : l.pc.holdsLock = true) (after : l'.pc.holdsLock = false)

theorem step_effect [DecidableEq Tid] {cfg : LockBaseConfig} {t : Tid}
    {action : LockBaseAction Tid} {lock lock' : UserLockBase Tid} {l l' : LockBaseThread}
    {event : LockBaseEvent} (stepped : step cfg t action lock l = some (lock', l', event)) :
    StepEffect cfg t lock lock' l l' event := by
  rcases l with ⟨pc, page⟩
  cases pc <;> cases action <;> simp only [step, reduceCtorEq] at stepped
  case tryLoad.run caller =>
    split at stepped <;> cases stepped
    · exact .silent rfl rfl rfl
    · exact .silent rfl (observe_failTry t caller) (holdsLock_failTry caller)
  case tryExchange.run caller =>
    split at stepped <;> cases stepped
    · next free => exact .acquires free rfl (observe_succeedTry t caller) rfl rfl
    · next taken =>
        exact .silent (not_not.mp taken).symm (observe_failTry t caller) (holdsLock_failTry caller)
  case maybeLoad.run loop =>
    split at stepped <;> cases stepped
    · refine .silent rfl rfl ?_
      dsimp only
      split <;> rfl
    · exact .silent rfl rfl (holdsLock_failMaybe loop)
  case maybeExchange.run loop =>
    split at stepped <;> cases stepped
    · next free => exact .acquires free rfl rfl rfl rfl
    · next taken => exact .silent (not_not.mp taken).symm rfl (holdsLock_failMaybe loop)
  case setWatchNeq.run =>
    cases stepped
    exact .silent rfl rfl holdsLock_enterLoop
  case maybeRearm.run loop =>
    cases stepped
    exact .silent rfl rfl (holdsLock_afterFailure loop)
  case unlockStore.run =>
    cases stepped
    refine .releases rfl rfl rfl ?_
    dsimp only
    split <;> rfl
  case unlockWake.wake woken =>
    cases woken <;> dsimp only at stepped <;> split at stepped <;> cases stepped <;>
      exact .silent rfl rfl rfl
  -- Every other step moves the thread along without touching the word.
  all_goals try (split at stepped)
  all_goals cases stepped
  all_goals exact .silent rfl rfl rfl

/-- A step keeps what the program counter says about the thread's page. -/
theorem step_pageOk [DecidableEq Tid] {cfg : LockBaseConfig} {t : Tid}
    {action : LockBaseAction Tid} {lock lock' : UserLockBase Tid} {l l' : LockBaseThread}
    {event : LockBaseEvent} (stepped : step cfg t action lock l = some (lock', l', event))
    (ok : PageOk cfg l) : PageOk cfg l' := by
  rcases l with ⟨pc, page⟩
  cases pc <;> cases action <;> simp only [step, reduceCtorEq] at stepped
  case tryLoad.run caller =>
    split at stepped <;> cases stepped
    · exact ok
    · exact pageOk_failTry ok caller
  case tryExchange.run caller =>
    split at stepped <;> cases stepped
    · exact ok
    · exact pageOk_failTry ok caller
  case setWatchFor.run =>
    cases stepped
    exact ⟨ok.1, ok.2, rfl⟩
  case setWatchNeq.run =>
    cases stepped
    exact pageOk_enterLoop ok.2.1 ⟨fun _ => ⟨ok.2.2, rfl⟩, fun _ => ok.2.1⟩
  case readTime.time now =>
    cases stepped
    exact ok.2
  case maybeLoad.run loop =>
    split at stepped <;> cases stepped
    · by_cases configured : cfg.autolock = true
      · simp only [configured, if_true]
        exact ⟨configured, ok⟩
      · simp only [configured]
        exact ⟨ok.2 (Bool.eq_false_iff.mpr configured), ok⟩
    · exact pageOk_failMaybe ok loop
  case maybeDisarm.run loop =>
    cases stepped
    exact ⟨rfl, fun _ => ok.2.1 ok.1, fun _ => rfl⟩
  case maybeExchange.run loop =>
    split at stepped <;> cases stepped
    · exact ok.1
    · exact pageOk_failMaybe ok.2 loop
  case maybeRearm.run loop =>
    cases stepped
    have armable : Armable cfg (page.autolockSetKernelWatchMem (some .mem)) :=
      ⟨fun _ => ok.2.1 ok.1, fun notConfigured => absurd ok.1 (by simp [notConfigured])⟩
    exact pageOk_afterFailure armable loop
  case unlockStore.run =>
    cases stepped
    by_cases futex : cfg.futex = true <;> simp only [futex, if_true] <;> exact ok
  case unlockWake.wake woken =>
    cases woken <;> dsimp only at stepped <;> split at stepped <;> cases stepped <;> exact ok
  all_goals try (split at stepped)
  all_goals cases stepped
  all_goals exact ok

/-- A page in the state its program counter calls for never keeps its owner
from running while the word is unlocked. -/
theorem PageOk.not_held {cfg : LockBaseConfig} {l : LockBaseThread} (ok : PageOk cfg l)
    {lock : UserLockBase Tid} (unlocked : lock.mem = cfg.unlocked) :
    l.page.held lock.read = false := by
  have disarmedOrArmable : l.page.watchMem = none ∨ Armable cfg l.page := by
    unfold PageOk at ok
    split at ok <;> tauto
  rcases disarmedOrArmable with disarmed | armable
  · exact KernelAutolockAbi.held_disarmed disarmed
  · cases armed : l.page.watchMem with
    | none => exact KernelAutolockAbi.held_disarmed armed
    | some word =>
        have configured : cfg.autolock = true := by
          by_contra notConfigured
          rw [armable.2 (Bool.eq_false_iff.mpr notConfigured)] at armed
          cases armed
        rcases armable.1 configured with ⟨expected, polarity⟩
        exact KernelAutolockAbi.held_expected armed polarity (unlocked.trans expected.symm)

/-- Outside `lock` and `trylock` the page is disarmed. -/
theorem PageOk.disarmed {cfg : LockBaseConfig} {l : LockBaseThread} (ok : PageOk cfg l)
    (returned : l.pc.inLockOrTrylock = false) : l.page.watchMem = none := by
  rcases l with ⟨pc, page⟩
  cases pc <;> first | exact ok | cases returned

/-! ## The invariant of every run -/

/-- The word is unlocked exactly when the specification has no holder. -/
def WordMatches (cfg : LockBaseConfig) (holder : Option Tid) (lock : UserLockBase Tid) : Prop :=
  (lock.mem = cfg.unlocked ∧ holder = none) ∨ (lock.mem = cfg.locked ∧ holder ≠ none)

/-- Every interleaving of the base lock refines the mutual exclusion
specification, with every page in the state its program counter calls for. -/
def threadInvariant [DecidableEq Tid] (cfg : LockBaseConfig) :
    ThreadInvariant (program Tid cfg) (init cfg) TransitionSystem.unguarded
      (mutex Tid) observe id where
  glob := fun _ holder lock => WordMatches cfg holder lock
  loc := fun holder t l => (l.pc.holdsLock = true <-> holder = some t) ∧ PageOk cfg l
  start := by
    intro s initial
    refine ⟨none, rfl, Or.inl ⟨by rw [initial.1], rfl⟩, fun t => ?_⟩
    rcases initial.2 t with ⟨outside, disarmed⟩
    refine ⟨by simp [outside, LockBasePc.holdsLock], ?_⟩
    simp only [PageOk, outside, disarmed]
  step := by
    intro _ holder s t action lock' l' event word locals stepped _
    rcases locals t with ⟨own, ok⟩
    have ok' := step_pageOk stepped ok
    cases step_effect stepped with
    | silent sameWord unseen same =>
        refine ⟨holder, ?_, ?_, ⟨by rw [same]; exact own, ok'⟩, fun _ _ other => other⟩
        · rw [unseen]
          exact .refl holder
        · simpa only [WordMatches, sameWord] using word
    | acquires free taken seen before after =>
        have nobody : holder = none := (word.resolve_right fun held => free held.1).2
        subst nobody
        refine ⟨some t, ?_, Or.inr ⟨taken, by simp⟩, ⟨by simp [after], ok'⟩, ?_⟩
        · rw [seen]
          exact .single ⟨rfl, rfl⟩
        · intro u different other
          refine ⟨?_, other.2⟩
          rw [other.1]
          simp [Ne.symm different]
    | releases given seen before after =>
        have mine : holder = some t := own.mp before
        subst mine
        refine ⟨none, ?_, Or.inl ⟨given, rfl⟩, ⟨by simp [after], ok'⟩, ?_⟩
        · rw [seen]
          exact .single ⟨rfl, rfl⟩
        · intro u different other
          refine ⟨?_, other.2⟩
          rw [other.1]
          simp [Ne.symm different]

/-- At most one thread holds the lock, a thread that is not inside `lock` or
`trylock` is disarmed, and while the word is unlocked the kernel holds nobody
back, at every point of every run, in every configuration. -/
theorem exclusive_disarmed_and_runnable [DecidableEq Tid] (cfg : LockBaseConfig)
    (trace : List (Tid × LockBaseEvent)) (s : Machine Tid (UserLockBase Tid) LockBaseThread)
    (run : (system cfg).Run TransitionSystem.unguarded trace s) :
    (forall t u, (s.thread t).pc.holdsLock = true -> (s.thread u).pc.holdsLock = true -> t = u) ∧
      (forall t, (s.thread t).pc.inLockOrTrylock = false -> (s.thread t).page.watchMem = none) ∧
      (s.shared.mem = cfg.unlocked ->
        forall t, (s.thread t).page.held s.shared.read = false) := by
  rcases (threadInvariant cfg).run run with ⟨holder, _, _, locals⟩
  refine ⟨?_, fun t => (locals t).2.disarmed, fun unlocked t => (locals t).2.not_held unlocked⟩
  intro t u first second
  exact Option.some.inj (((locals t).1.mp first).symm.trans ((locals u).1.mp second))

/-- A holder and a waiter that has armed its page, with every slow path configured. -/
theorem exclusive_disarmed_and_runnable_contended :
    let cfg : LockBaseConfig := ⟨true, true, true, true, false⟩
    let s := ((program Nat cfg).play [(0, .callLock), (0, .run), (0, .run), (1, .callLock), (1, .run),
      (1, .run), (1, .run), (1, .time 5), (1, .run), (1, .run)] (fresh Nat cfg)).1
    (forall t u, (s.thread t).pc.holdsLock = true -> (s.thread u).pc.holdsLock = true -> t = u) ∧
      (forall t, (s.thread t).pc.inLockOrTrylock = false -> (s.thread t).page.watchMem = none) ∧
      (s.shared.mem = cfg.unlocked ->
        forall t, (s.thread t).page.held s.shared.read = false) :=
  exclusive_disarmed_and_runnable _ _ _ (Program.run_play (fresh_init _) _ (by decide))

end LockBase

end UserLocks
end Autolock
