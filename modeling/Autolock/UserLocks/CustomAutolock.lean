import Autolock.Concurrency.Lockstep
import Autolock.UserLocks.LockBaseSafety
import Mathlib.Data.UInt

namespace Autolock
namespace UserLocks

open Concurrency

/-!
# The autolocks that are written out

`custom_spin_autolock` and `custom_backoff_autolock` share everything but the
waiting loop of `lock`.  They are what the base lock is with autolock and without
yielding and futex: both take the same steps, one by one, although the counter of
the backoff is an unsigned one here and runs beyond its mask in between.
-/

/-- `I_user_autolock_t` -/
structure UserAutolock where
  mem : UInt32

/-- The next atomic step of a thread; the loop of `lock` has the number of pauses. -/
inductive UserAutolockPc where
  | outside
  | tryLoad (caller : LockBaseCaller)
  | tryExchange (caller : LockBaseCaller)
  | setWatchFor
  | setWatchNeq
  | readTime
  | maybeLoad (backoffIter : UInt32)
  | maybeDisarm (backoffIter : UInt32)
  | maybeExchange (backoffIter : UInt32)
  | maybeRearm (backoffIter : UInt32)
  | holding
  | unlockStore
  deriving DecidableEq, Repr

structure UserAutolockThread where
  pc : UserAutolockPc
  page : KernelAutolockAbi LockBaseWord

namespace UserAutolock

variable {Tid : Type}

def unlocked (interpose : Bool) : UInt32 := if interpose then 0 else 1
def locked (interpose : Bool) : UInt32 := if interpose then 1 else 0

def customBackoffMaxMask : UInt32 := 255
def customBackoffInitMask : UInt64 := 31

/-- What `lock` does around `trylock_maybe_sched`: how it enters the loop, and the number of
pauses for the next time around. -/
structure Waiting where
  enter : UserAutolockPc
  next : UInt32 -> UInt32

def failTry : LockBaseCaller -> UserAutolockPc × LockBaseEvent
  | .trylock => (.outside, .trylockReturned iFailure)
  | .lock => (.setWatchFor, .internal)

def succeedTry : LockBaseCaller -> LockBaseEvent
  | .trylock => .trylockReturned iSuccess
  | .lock => .lockReturned iSuccess

/-- One atomic step of one thread. -/
def step (waiting : Waiting) (interpose : Bool) (action : LockBaseAction Tid) (lock : UserAutolock)
    (l : UserAutolockThread) : Option (UserAutolock × UserAutolockThread × LockBaseEvent) :=
  match l.pc, action with
  | .outside, .elsewhere watchFor watchNeq =>
      some (lock, { l with page := { l.page with watchFor := watchFor, watchNeq := watchNeq } },
        .internal)
  | .outside, .callLock => some (lock, { l with pc := .tryLoad .lock }, .internal)
  | .outside, .callTrylock => some (lock, { l with pc := .tryLoad .trylock }, .internal)
  -- `I_user_autolock_trylock`
  | .tryLoad caller, .run =>
      if lock.mem ≠ locked interpose then some (lock, { l with pc := .tryExchange caller }, .internal)
      else some (lock, { l with pc := (failTry caller).1 }, (failTry caller).2)
  | .tryExchange caller, .run =>
      if lock.mem ≠ locked interpose then
        some (⟨locked interpose⟩, { l with pc := .holding }, succeedTry caller)
      else some (⟨locked interpose⟩, { l with pc := (failTry caller).1 }, (failTry caller).2)
  -- `lock`, before its loop
  | .setWatchFor, .run =>
      some (lock, ⟨.setWatchNeq, l.page.autolockSetKernelWatchFor (unlocked interpose)⟩, .internal)
  | .setWatchNeq, .run =>
      some (lock, ⟨waiting.enter, l.page.autolockSetKernelWatchNeq 0⟩, .internal)
  | .readTime, .time now =>
      some (lock, { l with pc := .maybeLoad (now &&& customBackoffInitMask).toUInt32 }, .internal)
  -- `I_internal_user_autolock_trylock_maybe_sched`
  | .maybeLoad iter, .run =>
      if lock.mem ≠ locked interpose then some (lock, { l with pc := .maybeDisarm iter }, .internal)
      else some (lock, { l with pc := .maybeRearm iter }, .internal)
  | .maybeDisarm iter, .run =>
      some (lock, ⟨.maybeExchange iter, l.page.autolockSetKernelWatchMem none⟩, .internal)
  | .maybeExchange iter, .run =>
      if lock.mem ≠ locked interpose then
        some (⟨locked interpose⟩, { l with pc := .holding }, .lockReturned iSuccess)
      else some (⟨locked interpose⟩, { l with pc := .maybeRearm iter }, .internal)
  | .maybeRearm iter, .run =>
      some (lock,
        ⟨.maybeLoad (waiting.next iter), l.page.autolockSetKernelWatchMem (some .mem)⟩, .internal)
  -- `I_user_autolock_unlock`
  | .holding, .callUnlock => some (lock, { l with pc := .unlockStore }, .internal)
  | .unlockStore, .run => some (⟨unlocked interpose⟩, { l with pc := .outside }, .unlocked)
  | _, _ => none

/-- `custom_spin_autolock_lock`: one pause each time. -/
def customSpin : Waiting where
  enter := .maybeLoad 0
  next := id

/-- `custom_backoff_autolock_lock` -/
def customBackoff : Waiting where
  enter := .readTime
  next := fun iter => (iter + (iter + 1)) &&& customBackoffMaxMask

def program (Tid : Type) (waiting : Waiting) (interpose : Bool) :
    Program Tid UserAutolock UserAutolockThread (LockBaseAction Tid) LockBaseEvent where
  step := fun _ => step waiting interpose

/-- After `I_user_autolock_init`. -/
def init (interpose : Bool) (s : Machine Tid UserAutolock UserAutolockThread) : Prop :=
  s.shared = ⟨unlocked interpose⟩ ∧
    forall t, (s.thread t).pc = .outside ∧ (s.thread t).page.watchMem = none

/-! ## The same steps -/

/-- The flags of the base lock. -/
def flags (backoff interpose : Bool) : LockBaseConfig :=
  ⟨true, false, backoff, false, interpose⟩

def basePc : UserAutolockPc -> LockBasePc
  | .outside => .outside
  | .tryLoad caller => .tryLoad caller
  | .tryExchange caller => .tryExchange caller
  | .setWatchFor => .setWatchFor
  | .setWatchNeq => .setWatchNeq
  | .readTime => .readTime
  | .maybeLoad iter => .maybeLoad (.pause 0 iter.toNat)
  | .maybeDisarm iter => .maybeDisarm (.pause 0 iter.toNat)
  | .maybeExchange iter => .maybeExchange (.pause 0 iter.toNat)
  | .maybeRearm iter => .maybeRearm (.pause 0 iter.toNat)
  | .holding => .holding
  | .unlockStore => .unlockStore

def base (lock : UserAutolock) : UserLockBase Tid :=
  ⟨lock.mem, 0, []⟩

def baseThread (l : UserAutolockThread) : LockBaseThread :=
  ⟨basePc l.pc, l.page⟩

/-- The waiting is that of the base lock with or without backoff. -/
structure Waiting.Like (waiting : Waiting) (backoff interpose : Bool) : Prop where
  enter : basePc waiting.enter = LockBase.enterLoop (flags backoff interpose)
  next : forall iter, basePc (.maybeLoad (waiting.next iter)) =
    LockBase.afterFailure (flags backoff interpose) (.pause 0 iter.toNat)

theorem customSpin_like (interpose : Bool) : customSpin.Like false interpose where
  enter := rfl
  next := fun _ => rfl

/-- What runs over in 32 bits is cut off by the mask anyway. -/
theorem customBackoff_next (iter : UInt32) : (customBackoff.next iter).toNat =
    (iter.toNat + (iter.toNat + 1)) &&& LockBaseConfig.backoffMaxMask := by
  have mask : LockBaseConfig.backoffMaxMask = 2 ^ 8 - 1 := rfl
  have mask' : customBackoffMaxMask.toNat = 2 ^ 8 - 1 := rfl
  rw [customBackoff, UInt32.toNat_and, mask', mask, Nat.and_two_pow_sub_one_eq_mod,
    Nat.and_two_pow_sub_one_eq_mod, UInt32.toNat_add, UInt32.toNat_add]
  change (iter.toNat + (iter.toNat + 1) % 2 ^ 32) % 2 ^ 32 % 2 ^ 8 = _
  omega

theorem customBackoff_like (interpose : Bool) : customBackoff.Like true interpose where
  enter := rfl
  next := by
    intro iter
    simp only [basePc, customBackoff_next]
    rfl

theorem readTime_toNat (now : UInt64) : (now &&& customBackoffInitMask).toUInt32.toNat =
    now.toNat &&& LockBaseConfig.backoffInitMask := by
  have mask : LockBaseConfig.backoffInitMask = 2 ^ 5 - 1 := rfl
  have mask' : customBackoffInitMask.toNat = 2 ^ 5 - 1 := rfl
  rw [UInt64.toNat_toUInt32, UInt64.toNat_and, mask', mask, Nat.and_two_pow_sub_one_eq_mod]
  omega

variable [DecidableEq Tid] {waiting : Waiting} {backoff interpose : Bool}

theorem step_base (like : waiting.Like backoff interpose) (t : Tid) (action : LockBaseAction Tid)
    (lock : UserAutolock) (l : UserAutolockThread) :
    LockBase.step (flags backoff interpose) t action (base lock) (baseThread l) =
      (step waiting interpose action lock l).map fun result =>
        (base result.1, baseThread result.2.1, result.2.2) := by
  have same : (flags backoff interpose).locked = locked interpose := rfl
  have failed : forall caller, LockBase.failTry (flags backoff interpose) caller =
      (basePc (failTry caller).1, (failTry caller).2) := by
    intro caller
    cases caller <;> rfl
  rcases l with ⟨pc, page⟩
  cases pc <;> cases action <;> try rfl
  case tryLoad.run caller =>
    simp only [LockBase.step, step, base, baseThread, basePc, same, failed]
    split <;> rfl
  case tryExchange.run caller =>
    simp only [LockBase.step, step, base, baseThread, basePc, same, failed]
    split
    · cases caller <;> rfl
    · rfl
  case setWatchNeq.run =>
    change some (_, LockBaseThread.mk (LockBase.enterLoop _) _, _) =
      some (_, LockBaseThread.mk (basePc waiting.enter) _, _)
    rw [like.enter]
    rfl
  case readTime.time now =>
    simp only [LockBase.step, step, base, baseThread, basePc, Option.map_some, readTime_toNat]
    rfl
  case maybeLoad.run iter =>
    simp only [LockBase.step, step, base, baseThread, basePc, same]
    split <;> rfl
  case maybeExchange.run iter =>
    simp only [LockBase.step, step, base, baseThread, basePc, same]
    split <;> rfl
  case maybeRearm.run iter =>
    simp only [LockBase.step, step, base, baseThread, basePc, Option.map_some, ← like.next]

/-- The lock keeps pace with the base lock. -/
def lockstep (like : waiting.Like backoff interpose) :
    Lockstep (program Tid waiting interpose) (LockBase.program Tid (flags backoff interpose)) where
  shared := base
  thread := baseThread
  step := step_base like

theorem init_base (like : waiting.Like backoff interpose)
    {s : Machine Tid UserAutolock UserAutolockThread} (initial : init interpose s) :
    LockBase.init (flags backoff interpose) ((lockstep like).machine s) := by
  refine ⟨?_, fun t => ?_⟩
  · change base s.shared = _
    rw [initial.1]
    rfl
  · rcases initial.2 t with ⟨outside, disarmed⟩
    refine ⟨?_, disarmed⟩
    change basePc (s.thread t).pc = _
    rw [outside]
    rfl

/-- Every initial state of the base lock is one of this lock. -/
theorem exists_init (like : waiting.Like backoff interpose)
    (s' : Machine Tid (UserLockBase Tid) LockBaseThread)
    (initial : LockBase.init (flags backoff interpose) s') :
    exists s, init interpose s ∧ (lockstep like).machine s = s' := by
  rcases s' with ⟨shared, thread⟩
  rcases initial with ⟨rfl, outside⟩
  refine ⟨⟨⟨unlocked interpose⟩, fun t => ⟨.outside, (thread t).page⟩⟩,
    ⟨rfl, fun t => ⟨rfl, (outside t).2⟩⟩, ?_⟩
  refine congrArg (Machine.mk _) (funext fun t => ?_)
  have there : (thread t).pc = .outside := (outside t).1
  change LockBaseThread.mk .outside (thread t).page = thread t
  rw [← there]

/-! ## Both of them -/

/-- Up to the representation of the states the runs are those of the base lock. -/
theorem run_iff (like : waiting.Like backoff interpose) {trace : List (Tid × LockBaseEvent)}
    {s' : Machine Tid (UserLockBase Tid) LockBaseThread} :
    (LockBase.system (flags backoff interpose)).Run TransitionSystem.unguarded trace s' <->
      exists s, ((program Tid waiting interpose).system (init interpose)).Run
        TransitionSystem.unguarded trace s ∧ (lockstep like).machine s = s' := by
  constructor
  · exact (lockstep like).run_back (exists_init like)
  · rintro ⟨s, run, rfl⟩
    exact (lockstep like).run (fun _ => init_base like) run

/-- How the kernel reads a watched word. -/
def read (lock : UserAutolock) : LockBaseWord -> UInt32
  | .mem => lock.mem

omit [DecidableEq Tid] in
theorem read_base (lock : UserAutolock) : (base lock : UserLockBase Tid).read = read lock := by
  funext word
  cases word
  rfl

def custom (backoff : Bool) : Waiting :=
  if backoff then customBackoff else customSpin

theorem custom_like (backoff interpose : Bool) : (custom backoff).Like backoff interpose := by
  cases backoff
  · exact customSpin_like interpose
  · exact customBackoff_like interpose

def holdsLock : UserAutolockPc -> Bool
  | .holding | .unlockStore => true
  | _ => false

/-- Inside `lock` or `trylock`. -/
def inLockOrTrylock : UserAutolockPc -> Bool
  | .outside | .holding | .unlockStore => false
  | _ => true

theorem holdsLock_basePc (pc : UserAutolockPc) : (basePc pc).holdsLock = holdsLock pc := by
  cases pc <;> rfl

theorem inLockOrTrylock_basePc (pc : UserAutolockPc) :
    (basePc pc).inLockOrTrylock = inLockOrTrylock pc := by
  cases pc <;> rfl

/-- At most one thread holds the lock, nobody is armed outside of `lock`, and a free word
holds nobody back. -/
structure Safe (interpose : Bool) (s : Machine Tid UserAutolock UserAutolockThread) : Prop where
  exclusive : forall t u, holdsLock (s.thread t).pc = true -> holdsLock (s.thread u).pc = true ->
    t = u
  disarmed : forall t, inLockOrTrylock (s.thread t).pc = false -> (s.thread t).page.watchMem = none
  runnable : s.shared.mem = unlocked interpose ->
    forall t, (s.thread t).page.held s.shared.read = false

theorem safe_of_run (like : waiting.Like backoff interpose) {trace : List (Tid × LockBaseEvent)}
    {s : Machine Tid UserAutolock UserAutolockThread}
    (run : ((program Tid waiting interpose).system (init interpose)).Run
      TransitionSystem.unguarded trace s) : Safe interpose s := by
  have baseRun := (run_iff like).mpr ⟨s, run, rfl⟩
  rcases (LockBase.threadInvariant _).run baseRun with ⟨holder, -, -, locals⟩
  refine ⟨fun t u first second => ?_, fun t returned => ?_, fun free t => ?_⟩
  · rw [← holdsLock_basePc] at first second
    exact Option.some.inj (((locals t).1.mp first).symm.trans ((locals u).1.mp second))
  · exact (locals t).2.disarmed ((inLockOrTrylock_basePc _).trans returned)
  · have held : (s.thread t).page.held (base s.shared : UserLockBase Tid).read = false :=
      (locals t).2.not_held free
    rwa [read_base] at held

/-- `custom_spin_autolock` and `custom_backoff_autolock` have exactly the runs of the base lock
with autolock alone and with backoff, so that they exclude, disarm and never hold a thread back
in vain. -/
theorem custom_autolocks_are_base (Tid : Type) [DecidableEq Tid] (backoff interpose : Bool) :
    (forall trace s', (LockBase.system (flags backoff interpose)).Run
        TransitionSystem.unguarded trace s' <->
      exists s, ((program Tid (custom backoff) interpose).system (init interpose)).Run
        TransitionSystem.unguarded trace s ∧
          (lockstep (custom_like backoff interpose)).machine s = s') ∧
    forall trace s, ((program Tid (custom backoff) interpose).system (init interpose)).Run
      TransitionSystem.unguarded trace s -> Safe interpose s :=
  ⟨fun _ _ => run_iff (custom_like backoff interpose),
    fun _ _ run => safe_of_run (custom_like backoff interpose) run⟩

end UserAutolock

end UserLocks
end Autolock
