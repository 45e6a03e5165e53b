import Autolock.Concurrency.Futex
import Autolock.Locks.LockOps

namespace Autolock
namespace Locks

open Concurrency

/-!
# Which sleepers of the generic lock are woken

Memory says that the lock is taken as long as a thread has it, or has released
it with a store that memory has not seen.  At most one thread is in this
position.  A thread that goes to sleep relies on it: either it will read the
count of waiters in `unlock`, which includes the sleeper, or it has read the
count already, before the sleeper came, while its own store was on the way.
Nobody is left to wake the sleeper in the second case.
-/

/-- A word of the lock in memory is overwritten. -/
def LockOpsBase.withWord {Tid : Type} (lock : LockOpsBase Tid) (a : LockWord) (w : UInt32) :
    LockOpsBase Tid :=
  { lock with tso := { lock.tso with memory := Function.update lock.tso.memory a w } }

namespace LockOps

variable {Tid : Type}

theorem withWord_self (lock : LockOpsBase Tid) (a : LockWord) (w : UInt32) :
    (lock.withWord a w).tso.memory a = w :=
  Function.update_self ..

theorem withWord_other (lock : LockOpsBase Tid) {a b : LockWord} (different : b ≠ a)
    (w : UInt32) : (lock.withWord a w).tso.memory b = lock.tso.memory b :=
  Function.update_of_ne different ..

/-! ## What one step does -/

/-- Where a thread is, as far as the lock word, the count and the queue are concerned. -/
inductive Place where
  | apart
  | trying
  | registering
  | sleeping
  | leaving
  | holding
  | unlocking
  | checking
  | waking
  deriving DecidableEq

def place : LockOpsPc -> Place
  | .outside | .tryLoad .api | .tryExchange .api => .apart
  | .tryLoad _ | .tryExchange _ | .readTime | .addWaiter => .trying
  | .futexWait => .registering
  | .futexSleep => .sleeping
  | .subWaiter => .leaving
  | .holding => .holding
  | .unlockStore => .unlocking
  | .unlockLoadWaiters => .checking
  | .unlockWake => .waking

namespace Place

def registered : Place -> Bool
  | .registering | .sleeping | .leaving => true
  | _ => false

def asleep : Place -> Bool
  | .sleeping => true
  | _ => false

def holdsLock : Place -> Bool
  | .holding | .unlocking => true
  | _ => false

/-- The thread has made no locked access since its last unlocking store. -/
def mayBuffer : Place -> Bool
  | .apart | .trying | .checking | .waking => true
  | _ => false

end Place

theorem registered_place (pc : LockOpsPc) : (place pc).registered = pc.registered := by
  rcases pc with _ | site | site | _ | _ | _ | _ | _ | _ | _ | _ | _ <;> first
    | rfl
    | cases site <;> rfl

theorem holdsLock_place (pc : LockOpsPc) : (place pc).holdsLock = pc.holdsLock := by
  rcases pc with _ | site | site | _ | _ | _ | _ | _ | _ | _ | _ | _ <;> first
    | rfl
    | cases site <;> rfl

theorem futexWait_of_place {pc : LockOpsPc} (here : place pc = .registering) : pc = .futexWait := by
  rcases pc with _ | site | site | _ | _ | _ | _ | _ | _ | _ | _ | _ <;> first
    | rfl
    | cases here
    | cases site <;> cases here

theorem futexSleep_of_place {pc : LockOpsPc} (here : place pc = .sleeping) : pc = .futexSleep := by
  rcases pc with _ | site | site | _ | _ | _ | _ | _ | _ | _ | _ | _ <;> first
    | rfl
    | cases here
    | cases site <;> cases here

/-- Every place but two is inside `lock` or `unlock`. -/
theorem inside_place (pc : LockOpsPc) :
    pc.inside = false <-> place pc = .apart ∨ place pc = .holding := by
  rcases pc with _ | site | site | _ | _ | _ | _ | _ | _ | _ | _ | _ <;> first
    | decide
    | cases site <;> simp [LockOpsPc.inside, place]

section effect

variable [DecidableEq Tid]

/-- The kinds of step, with what each does to the lock and to the place of its thread. -/
inductive StepEffect (cfg : LockOpsConfig) (t : Tid) (lock : LockOpsBase Tid) :
    LockOpsBase Tid -> Place -> Place -> Prop
  | silent (there : Place) : StepEffect cfg t lock lock there there
  | drains (there : Place) {tso : StoreBuffers Tid LockWord UInt32}
      (drained : lock.tso.drain t = some tso) :
      StepEffect cfg t lock { lock with tso := tso } there there
  | calls : StepEffect cfg t lock lock .apart .trying
  | acquires {there : Place} (tries : there = .apart ∨ there = .trying)
      (empty : lock.tso.buffer t = []) (free : lock.tso.memory .mem ≠ kLocked) :
      StepEffect cfg t lock (lock.withWord .mem kLocked) there .holding
  | registers (empty : lock.tso.buffer t = []) :
      StepEffect cfg t lock (lock.withWord .waiters (lock.tso.memory .waiters + 1)) .trying
        .registering
  | sleeps (taken : lock.tso.memory .mem = kLocked) :
      StepEffect cfg t lock { lock with sleepers := lock.sleepers ++ [t] } .registering .sleeping
  | skips : StepEffect cfg t lock lock .registering .leaving
  | awakes (awake : t ∉ lock.sleepers) : StepEffect cfg t lock lock .sleeping .leaving
  | interrupted :
      StepEffect cfg t lock { lock with sleepers := lock.sleepers.erase t } .sleeping .leaving
  | leaves (empty : lock.tso.buffer t = []) :
      StepEffect cfg t lock (lock.withWord .waiters (lock.tso.memory .waiters - 1)) .leaving
        .trying
  | unlocks : StepEffect cfg t lock lock .holding .unlocking
  | stores :
      StepEffect cfg t lock { lock with tso := lock.tso.store t .mem kUnlocked } .unlocking
        (if cfg.withFutex then .checking else .apart)
  | seesNobody (none : lock.tso.load t .waiters = 0) : StepEffect cfg t lock lock .checking .apart
  | seesWaiters : StepEffect cfg t lock lock .checking .waking
  | wakes {woken : Tid} (asleep : woken ∈ lock.sleepers) :
      StepEffect cfg t lock { lock with sleepers := lock.sleepers.erase woken } .waking .apart
  | wakesNobody (nobody : lock.sleepers = []) : StepEffect cfg t lock lock .waking .apart

/-- A failed `try_lock` leaves its caller where it was. -/
theorem place_afterFailure (cfg : LockOpsConfig) (site : TryLockSite) :
    place (afterFailure cfg site).1 = place (.tryLoad site) := by
  have loops : place (leaveLoops cfg) = .trying := by
    unfold leaveLoops
    split <;> rfl
  cases site with
  | api => rfl
  | first =>
      show place (if cfg.withBackoff then _ else _) = _
      split <;> rfl
  | raw iterCount backoff =>
      simp only [afterFailure, leaveRaw]
      split
      · rfl
      · split
        · split
          · rfl
          · exact loops
        · rfl
  | yield iterCount =>
      simp only [afterFailure]
      split
      · rfl
      · split
        · exact loops
        · rfl

theorem step_effect {cfg : LockOpsConfig} {t : Tid} {action : LockOpsAction Tid}
    {lock lock' : LockOpsBase Tid} {pc pc' : LockOpsPc} {event : LockOpsEvent}
    (stepped : step cfg t action lock pc = some (lock', pc', event)) :
    StepEffect cfg t lock lock' (place pc) (place pc') := by
  by_cases isDrain : action = .drain
  · subst isDrain
    simp only [step, Option.map_eq_some_iff, Prod.mk.injEq] at stepped
    rcases stepped with ⟨tso, drained, rfl, rfl, _⟩
    exact .drains _ drained
  cases pc <;> cases action <;> simp only [step, reduceCtorEq, not_true] at stepped isDrain
  case outside.callLock =>
    cases stepped
    exact .calls
  case outside.callTryLock =>
    cases stepped
    exact .silent _
  case tryLoad.run site =>
    split at stepped <;> cases stepped
    · cases site <;> exact .silent _
    · rw [place_afterFailure]
      exact .silent _
  case tryExchange.run site =>
    simp only [Option.bind_eq_bind, Option.bind_eq_some_iff] at stepped
    rcases stepped with ⟨⟨tso, old⟩, modified, stepped⟩
    rcases StoreBuffers.modify_eq_some modified with ⟨empty, rfl, rfl⟩
    have same : place (.tryExchange site) = place (.tryLoad site) := by cases site <;> rfl
    split at stepped
    · next free =>
        cases stepped
        refine .acquires ?_ empty free
        cases site <;> simp [place]
    · next taken =>
        cases stepped
        have unchanged : Function.update lock.tso.memory .mem kLocked = lock.tso.memory := by
          rw [← not_not.mp taken, Function.update_eq_self]
        rw [unchanged, place_afterFailure, same]
        exact .silent _
  case addWaiter.run =>
    simp only [Option.bind_eq_bind, Option.bind_eq_some_iff] at stepped
    rcases stepped with ⟨⟨tso, old⟩, modified, stepped⟩
    rcases StoreBuffers.modify_eq_some modified with ⟨empty, rfl, rfl⟩
    cases stepped
    exact .registers empty
  case subWaiter.run =>
    simp only [Option.bind_eq_bind, Option.bind_eq_some_iff] at stepped
    rcases stepped with ⟨⟨tso, old⟩, modified, stepped⟩
    rcases StoreBuffers.modify_eq_some modified with ⟨empty, rfl, rfl⟩
    cases stepped
    exact .leaves empty
  case futexWait.run =>
    split at stepped <;> cases stepped
    · next taken => exact .sleeps taken
    · exact .skips
  case futexSleep.run =>
    split at stepped <;> cases stepped
    next awake => exact .awakes awake
  case unlockStore.run =>
    have effect : StepEffect cfg t lock { lock with tso := lock.tso.store t .mem kUnlocked }
      .unlocking (if cfg.withFutex then .checking else .apart) := .stores
    split at stepped
    · next configured =>
        cases stepped
        rw [if_pos configured] at effect
        exact effect
    · next notConfigured =>
        cases stepped
        rw [if_neg notConfigured] at effect
        exact effect
  case unlockLoadWaiters.run =>
    split at stepped <;> cases stepped
    · exact .seesWaiters
    · next none => exact .seesNobody (not_not.mp none)
  case unlockWake.wake woken =>
    cases woken with
    | none =>
        simp only at stepped
        split at stepped <;> cases stepped
        next nobody => exact .wakesNobody nobody.2
    | some woken =>
        simp only at stepped
        split at stepped <;> cases stepped
        next asleep => exact .wakes asleep.2
  case readTime.time now =>
    cases stepped
    exact .silent _
  case futexWait.interrupted =>
    cases stepped
    exact .skips
  case futexSleep.interrupted =>
    cases stepped
    exact .interrupted
  case holding.callUnlock =>
    cases stepped
    exact .unlocks

end effect

/-! ## Who has the lock -/

/-- The thread has the lock, or memory has not seen yet that it has released it. -/
def Owner (lock : LockOpsBase Tid) (places : Tid -> Place) (t : Tid) : Prop :=
  (places t).holdsLock = true ∨ lock.tso.buffer t ≠ []

/-- Memory says that the lock is taken exactly as long as there is an owner, of
which there is at most one. -/
structure Owned (lock : LockOpsBase Tid) (places : Tid -> Place) : Prop where
  buffered : forall t, lock.tso.buffer t ≠ [] ->
    lock.tso.buffer t = [(.mem, kUnlocked)] ∧ (places t).mayBuffer = true
  taken : forall t, Owner lock places t -> lock.tso.memory .mem = kLocked
  unique : forall t u, Owner lock places t -> Owner lock places u -> t = u
  owner : lock.tso.memory .mem = kLocked -> exists t, Owner lock places t

section owned

variable [DecidableEq Tid] {lock lock' : LockOpsBase Tid} {places : Tid -> Place} {t : Tid}
  {there' : Place}

omit [DecidableEq Tid] in
theorem Owned.empty (owned : Owned lock places) (noBuffer : (places t).mayBuffer = false) :
    lock.tso.buffer t = [] := by
  by_contra buffered
  have may := (owned.buffered t buffered).2
  rw [noBuffer] at may
  cases may

/-- A step that changes neither the lock word nor a buffer, nor who has the lock. -/
theorem Owned.stay (owned : Owned lock places)
    (memory : lock'.tso.memory .mem = lock.tso.memory .mem)
    (buffer : lock'.tso.buffer = lock.tso.buffer)
    (holds : there'.holdsLock = (places t).holdsLock)
    (may : lock.tso.buffer t ≠ [] -> there'.mayBuffer = true) :
    Owned lock' (Function.update places t there') := by
  have owner : forall u, Owner lock' (Function.update places t there') u <-> Owner lock places u := by
    intro u
    unfold Owner
    rw [buffer]
    by_cases itself : u = t
    · subst itself
      rw [Function.update_self, holds]
    · rw [Function.update_of_ne itself]
  refine ⟨fun u buffered => ?_, fun u isOwner => ?_, fun u v first second => ?_, fun taken => ?_⟩
  · rw [buffer] at buffered ⊢
    refine ⟨(owned.buffered u buffered).1, ?_⟩
    by_cases itself : u = t
    · subst itself
      rw [Function.update_self]
      exact may buffered
    · rw [Function.update_of_ne itself]
      exact (owned.buffered u buffered).2
  · exact memory.trans (owned.taken u ((owner u).mp isOwner))
  · exact owned.unique u v ((owner u).mp first) ((owner v).mp second)
  · rcases owned.owner (memory.symm.trans taken) with ⟨u, isOwner⟩
    exact ⟨u, (owner u).mpr isOwner⟩

/-- The store of a released lock reaches memory. -/
theorem Owned.drain (owned : Owned lock places) {tso : StoreBuffers Tid LockWord UInt32}
    (drained : lock.tso.drain t = some tso) : Owned { lock with tso := tso } places := by
  rcases StoreBuffers.drain_eq_some drained with ⟨a, w, stores, buffered, rfl⟩
  have nonempty : lock.tso.buffer t ≠ [] := by
    rw [buffered]
    exact List.cons_ne_nil _ _
  rcases owned.buffered t nonempty with ⟨only, may⟩
  rw [buffered] at only
  cases only
  have noOwner : forall u, ¬Owner { lock with tso := ⟨Function.update lock.tso.memory .mem kUnlocked,
      Function.update lock.tso.buffer t []⟩ } places u := by
    intro u isOwner
    have before : Owner lock places u := by
      rcases isOwner with holds | buffered'
      · exact Or.inl holds
      · by_cases itself : u = t
        · exact Or.inr (itself ▸ nonempty)
        · exact Or.inr fun none => buffered' ((Function.update_of_ne itself ..).trans none)
    have same := owned.unique u t before (Or.inr nonempty)
    subst same
    rcases isOwner with holds | buffered'
    · change (places u).holdsLock = true at holds
      revert holds may
      cases places u <;> decide
    · exact buffered' (Function.update_self ..)
  refine ⟨fun u buffered' => absurd (Or.inr buffered') (noOwner u),
    fun u isOwner => absurd isOwner (noOwner u), fun u _ isOwner => absurd isOwner (noOwner u),
    fun taken => ?_⟩
  have unlocked : Function.update lock.tso.memory .mem kUnlocked .mem = kLocked := taken
  rw [Function.update_self] at unlocked
  exact absurd unlocked (by decide)

/-- An exchange takes a lock that memory says is free. -/
theorem Owned.acquire (owned : Owned lock places)
    (free : lock.tso.memory .mem ≠ kLocked) :
    Owned (lock.withWord .mem kLocked) (Function.update places t .holding) := by
  have nobody : forall u, ¬Owner lock places u := fun u isOwner => free (owned.taken u isOwner)
  have itself : forall u, Owner (lock.withWord .mem kLocked) (Function.update places t .holding) u ->
      u = t := by
    rintro u (holds | buffered)
    · by_contra different
      rw [Function.update_of_ne different] at holds
      exact nobody u (Or.inl holds)
    · exact absurd (Or.inr buffered) (nobody u)
  refine ⟨fun u buffered => absurd (Or.inr buffered) (nobody u), fun _ _ => withWord_self ..,
    fun u v first second => (itself u first).trans (itself v second).symm,
    fun _ => ⟨t, Or.inl ?_⟩⟩
  rw [Function.update_self]
  rfl

/-- The plain store of `unlock` goes into the buffer. -/
theorem Owned.store (owned : Owned lock places) (here : places t = .unlocking)
    (may : there'.mayBuffer = true) :
    Owned { lock with tso := lock.tso.store t .mem kUnlocked } (Function.update places t there') := by
  have empty : lock.tso.buffer t = [] := owned.empty (by rw [here]; rfl)
  have wasOwner : Owner lock places t := Or.inl (by rw [here]; rfl)
  have stored : (lock.tso.store t .mem kUnlocked).buffer t = [(.mem, kUnlocked)] := by
    simp [StoreBuffers.store, empty]
  have others : forall u, u ≠ t -> (lock.tso.store t .mem kUnlocked).buffer u = lock.tso.buffer u :=
    fun u different => Function.update_of_ne different ..
  have owner : forall u, Owner { lock with tso := lock.tso.store t .mem kUnlocked }
      (Function.update places t there') u <-> Owner lock places u := by
    intro u
    by_cases itself : u = t
    · subst itself
      refine iff_of_true (Or.inr ?_) wasOwner
      rw [stored]
      exact List.cons_ne_nil _ _
    · unfold Owner
      rw [Function.update_of_ne itself, others u itself]
  refine ⟨fun u buffered => ?_, fun u isOwner => owned.taken u ((owner u).mp isOwner),
    fun u v first second => owned.unique u v ((owner u).mp first) ((owner v).mp second),
    fun taken => ?_⟩
  · by_cases itself : u = t
    · subst itself
      rw [Function.update_self]
      exact ⟨stored, may⟩
    · rw [Function.update_of_ne itself]
      rw [others u itself] at buffered ⊢
      exact owned.buffered u buffered
  · rcases owned.owner taken with ⟨u, isOwner⟩
    exact ⟨u, (owner u).mpr isOwner⟩

theorem StepEffect.owned {cfg : LockOpsConfig}
    (effect : StepEffect cfg t lock lock' (places t) there') (owned : Owned lock places) :
    Owned lock' (Function.update places t there') := by
  generalize here : places t = there at effect
  cases effect with
  | silent =>
      rw [← here, Function.update_eq_self]
      exact owned
  | drains there drained =>
      rw [← here, Function.update_eq_self]
      exact owned.drain drained
  | acquires tries empty free => exact owned.acquire free
  | stores =>
      by_cases configured : cfg.withFutex = true
      · rw [if_pos configured]
        exact owned.store here rfl
      · rw [if_neg configured]
        exact owned.store here rfl
  | registers empty | leaves empty =>
      exact owned.stay (withWord_other _ (by decide) _) rfl (by rw [here]; rfl)
        fun buffered => absurd empty buffered
  -- The other steps leave memory alone.
  | calls | seesNobody | seesWaiters | wakes | wakesNobody =>
      exact owned.stay rfl rfl (by rw [here]; rfl) fun _ => rfl
  | sleeps | skips | awakes | interrupted | unlocks =>
      exact owned.stay rfl rfl (by rw [here]; rfl)
        fun buffered => absurd (owned.empty (by rw [here]; rfl)) buffered

end owned

/-! ## Who is asleep, and who is counted -/

/-- The queue holds threads inside `futex_wait`, and the count is that of the
threads between their increment and their decrement. -/
def Queued (lock : LockOpsBase Tid) (places : Tid -> Place) : Prop :=
  FutexQueue Place.registered Place.asleep lock.sleepers (lock.tso.memory .waiters) places

theorem Queued.sleeping {lock : LockOpsBase Tid} {places : Tid -> Place}
    (queued : Queued lock places) {u : Tid} (member : u ∈ lock.sleepers) :
    places u = .sleeping := by
  have asleep := queued.asleep u member
  revert asleep
  cases places u <;> decide

section queued

variable [DecidableEq Tid] {lock lock' : LockOpsBase Tid} {places : Tid -> Place} {t : Tid}
  {there' : Place} {cfg : LockOpsConfig}

theorem StepEffect.queued (effect : StepEffect cfg t lock lock' (places t) there')
    (owned : Owned lock places) (queued : Queued lock places)
    (fits : (population (fun there : Place => there.registered = true)
      (Function.update places t there')).encard < (2 ^ 32 : Nat)) :
    Queued lock' (Function.update places t there') := by
  generalize here : places t = there at effect
  have awake : there.asleep = false -> t ∉ lock.sleepers :=
    fun notAsleep => queued.not_mem (by rw [here]; exact notAsleep)
  cases effect with
  | silent =>
      rw [← here, Function.update_eq_self]
      exact queued
  | drains there drained =>
      rw [← here, Function.update_eq_self]
      rcases StoreBuffers.drain_eq_some drained with ⟨a, w, stores, buffered, rfl⟩
      have only := (owned.buffered t (by rw [buffered]; exact List.cons_ne_nil _ _)).1
      rw [buffered] at only
      cases only
      have same : Function.update lock.tso.memory .mem kUnlocked .waiters =
          lock.tso.memory .waiters := Function.update_of_ne (by decide) ..
      show FutexQueue _ _ lock.sleepers
        (Function.update lock.tso.memory .mem kUnlocked .waiters) places
      rw [same]
      exact queued
  | acquires tries empty free =>
      unfold Queued
      rw [withWord_other _ (by decide)]
      refine queued.move (.refl _) (awake ?_) ?_
      · rcases tries with rfl | rfl <;> rfl
      · rw [here]
        rcases tries with rfl | rfl <;> rfl
  | registers empty =>
      unfold Queued
      rw [withWord_self]
      exact queued.register (awake rfl) (by rw [here]; rfl) rfl fits
  | leaves empty =>
      unfold Queued
      rw [withWord_self]
      exact queued.deregister (awake rfl) (by rw [here]; rfl) rfl
  | sleeps taken => exact queued.sleep (awake rfl) rfl (by rw [here]; rfl)
  | interrupted =>
      exact queued.move List.erase_sublist queued.nodup.not_mem_erase (by rw [here]; rfl)
  | awakes gone => exact queued.move (.refl _) gone (by rw [here]; rfl)
  | @wakes woken member =>
      exact queued.move List.erase_sublist
        (fun still => awake rfl (List.mem_of_mem_erase still)) (by rw [here]; rfl)
  | stores =>
      refine queued.move (.refl _) (awake rfl) ?_
      rw [here]
      cases cfg.withFutex <;> rfl
  | calls | skips | unlocks | seesNobody | seesWaiters | wakesNobody =>
      exact queued.move (.refl _) (awake rfl) (by rw [here]; rfl)

end queued

/-! ## Somebody is awake for the sleepers -/

/-- If threads sleep, some thread is awake that is inside `lock` or `unlock` or has the lock. -/
def Alert (lock : LockOpsBase Tid) (places : Tid -> Place) : Prop :=
  lock.sleepers = [] ∨ exists t, places t ≠ .apart ∧ t ∉ lock.sleepers

section alert

variable [DecidableEq Tid] {lock lock' : LockOpsBase Tid} {places : Tid -> Place} {t : Tid}
  {there' : Place} {cfg : LockOpsConfig}

/-- The thread that moves stays awake, or another one was. -/
theorem Alert.stay (alert : Alert lock places)
    (others : forall u, u ∈ lock'.sleepers -> u ∈ lock.sleepers)
    (itself : places t ≠ .apart -> t ∉ lock.sleepers -> there' ≠ .apart) :
    Alert lock' (Function.update places t there') := by
  rcases alert with nobody | ⟨u, inside, awake⟩
  · exact Or.inl (List.eq_nil_iff_forall_not_mem.mpr fun u member =>
      List.eq_nil_iff_forall_not_mem.mp nobody u (others u member))
  · refine Or.inr ⟨u, ?_, fun member => awake (others u member)⟩
    by_cases same : u = t
    · subst same
      rw [Function.update_self]
      exact itself inside awake
    · rw [Function.update_of_ne same]
      exact inside

/-- The thread that moves is awake inside `lock` or `unlock`, or has the lock. -/
theorem Alert.of_self (inside : there' ≠ .apart) (awake : t ∉ lock'.sleepers) :
    Alert lock' (Function.update places t there') :=
  Or.inr ⟨t, by rwa [Function.update_self], awake⟩

/-- As long as nobody goes to sleep while a returned `unlock` is on its way to
memory, somebody is awake for the sleepers. -/
theorem StepEffect.alert (effect : StepEffect cfg t lock lock' (places t) there')
    (configured : cfg.withFutex = true) (owned : Owned lock places) (queued : Queued lock places)
    (drained : places t = .registering -> there' = .sleeping ->
      forall u, places u = .apart -> lock.tso.buffer u = [])
    (alert : Alert lock places) : Alert lock' (Function.update places t there') := by
  generalize here : places t = there at effect
  have awake : there ≠ .sleeping -> t ∉ lock.sleepers :=
    fun notSleeping member => notSleeping (here.symm.trans (queued.sleeping member))
  cases effect with
  | silent | drains =>
      rw [← here, Function.update_eq_self]
      exact alert
  | calls => exact .of_self nofun (awake nofun)
  | acquires tries empty free =>
      refine .of_self nofun (awake ?_)
      rcases tries with rfl | rfl <;> exact nofun
  | registers | leaves | skips | unlocks | seesWaiters => exact .of_self nofun (awake nofun)
  | awakes gone => exact .of_self nofun gone
  | interrupted => exact .of_self nofun queued.nodup.not_mem_erase
  | stores =>
      rw [if_pos configured]
      exact .of_self nofun (awake nofun)
  | sleeps taken =>
      -- Memory says that the lock is taken, so that some other thread is its owner.
      rcases owned.owner taken with ⟨u, isOwner⟩
      have different : u ≠ t := by
        rintro rfl
        rcases isOwner with holds | buffered
        · rw [here] at holds
          cases holds
        · exact buffered (owned.empty (by rw [here]; rfl))
      have inside : places u ≠ .apart := by
        intro apart
        rcases isOwner with holds | buffered
        · rw [apart] at holds
          cases holds
        · exact buffered (drained here rfl u apart)
      have notAsleep : u ∉ lock.sleepers := by
        intro member
        have sleeping := queued.sleeping member
        rcases isOwner with holds | buffered
        · rw [sleeping] at holds
          cases holds
        · exact buffered (owned.empty (by rw [sleeping]; rfl))
      refine Or.inr ⟨u, by rwa [Function.update_of_ne different], fun member => ?_⟩
      rcases List.mem_append.mp member with before | last
      · exact notAsleep before
      · exact different (List.mem_singleton.mp last)
  | seesNobody none =>
      -- A load of zero comes from memory, and then nobody is registered.
      left
      have fromMemory : lock.tso.load t .waiters = lock.tso.memory .waiters := by
        apply StoreBuffers.load_eq_memory
        intro store buffered
        have only := (owned.buffered t (List.ne_nil_of_mem buffered)).1
        rw [only, List.mem_singleton] at buffered
        rw [buffered]
        exact nofun
      rw [fromMemory] at none
      unfold Queued at queued
      rw [none] at queued
      refine queued.nobody fun there => ?_
      cases there <;> decide
  | @wakes woken member =>
      have different : woken ≠ t := fun same => awake nofun (same ▸ member)
      refine Or.inr ⟨woken, ?_, queued.nodup.not_mem_erase⟩
      rw [Function.update_of_ne different, queued.sleeping member]
      exact nofun
  | wakesNobody nobody => exact Or.inl nobody

end alert

/-! ## Every run -/

section runs

variable [DecidableEq Tid] {cfg : LockOpsConfig}

/-- Fewer than `2 ^ 32` threads are between their increment and their decrement. -/
def Countable (s : Machine Tid (LockOpsBase Tid) LockOpsPc) : Prop :=
  (population (fun pc : LockOpsPc => pc.registered = true) s.thread).encard < (2 ^ 32 : Nat)

/-- If the step puts its thread to sleep, then every thread outside `lock` and
`unlock` has its stores in memory. -/
def SleepsDrained (s : Machine Tid (LockOpsBase Tid) LockOpsPc) (t : Tid)
    (s' : Machine Tid (LockOpsBase Tid) LockOpsPc) : Prop :=
  s.thread t = .futexWait -> s'.thread t = .futexSleep ->
    forall u, (s.thread u).inside = false -> s.shared.tso.buffer u = []

/-- Runs in which nobody goes to sleep while a returned `unlock` is on its way to memory. -/
def sleepsDrained : TransitionSystem.Guard (Machine Tid (LockOpsBase Tid) LockOpsPc)
    (Tid × LockOpsEvent) :=
  fun _ s label s' => Countable s' ∧ SleepsDrained s label.1 s'

def places (s : Machine Tid (LockOpsBase Tid) LockOpsPc) : Tid -> Place :=
  fun t => place (s.thread t)

theorem places_update (s : Machine Tid (LockOpsBase Tid) LockOpsPc) (lock' : LockOpsBase Tid)
    (t : Tid) (pc' : LockOpsPc) :
    places ⟨lock', Function.update s.thread t pc'⟩ = Function.update (places s) t (place pc') :=
  Function.comp_update place s.thread t pc'

omit [DecidableEq Tid] in
theorem owned_initial : Owned (initial Tid).shared (places (initial Tid)) := by
  have noOwner : forall t, ¬Owner (initial Tid).shared (places (initial Tid)) t := by
    rintro t (holds | buffered)
    · cases holds
    · exact buffered rfl
  refine ⟨fun t buffered => absurd rfl buffered, fun t isOwner => absurd isOwner (noOwner t),
    fun t _ isOwner => absurd isOwner (noOwner t), fun taken => ?_⟩
  exact absurd (show kUnlocked = kLocked from taken) (by decide)

theorem owned_of_run {guard : TransitionSystem.Guard (Machine Tid (LockOpsBase Tid) LockOpsPc)
      (Tid × LockOpsEvent)} {trace : List (Tid × LockOpsEvent)}
    {s : Machine Tid (LockOpsBase Tid) LockOpsPc} (run : (system cfg).Run guard trace s) :
    Owned s.shared (places s) := by
  refine run.invariant (fun _ s => Owned s.shared (places s)) ?_ ?_
  · rintro _ rfl
    exact owned_initial
  · intro _ s label s' owned moved _
    rcases Program.system_next moved with ⟨action, lock', pc', stepped, rfl⟩
    rw [places_update]
    exact (step_effect stepped).owned owned

omit [DecidableEq Tid] in
theorem population_places (s : Machine Tid (LockOpsBase Tid) LockOpsPc) :
    population (fun there : Place => there.registered = true) (places s) =
      population (fun pc : LockOpsPc => pc.registered = true) s.thread := by
  ext t
  show (place (s.thread t)).registered = true <-> (s.thread t).registered = true
  rw [registered_place]

omit [DecidableEq Tid] in
theorem queued_initial : Queued (initial Tid).shared (places (initial Tid)) :=
  futexQueue_empty fun _ => rfl

theorem alert_of_run (configured : cfg.withFutex = true) {trace : List (Tid × LockOpsEvent)}
    {s : Machine Tid (LockOpsBase Tid) LockOpsPc} (run : (system cfg).Run sleepsDrained trace s) :
    Queued s.shared (places s) ∧ Alert s.shared (places s) := by
  induction run with
  | start isInitial =>
      rcases isInitial with rfl
      exact ⟨queued_initial, Or.inl rfl⟩
  | @step trace s label s' run moved allowed inductionHypothesis =>
      rcases inductionHypothesis with ⟨queued, alert⟩
      have owned := owned_of_run run
      have fits := allowed.1
      have sleeps := allowed.2
      rcases Program.system_next moved with ⟨action, lock', pc', stepped, rfl⟩
      have effect := step_effect stepped
      rw [Countable, ← population_places, places_update] at fits
      rw [places_update]
      refine ⟨effect.queued owned queued fits,
        effect.alert configured owned queued (fun registering sleeping u apart => ?_) alert⟩
      refine sleeps (futexWait_of_place registering) ?_ u ((inside_place _).mpr (Or.inl apart))
      show Function.update s.thread label.1 pc' label.1 = .futexSleep
      rw [Function.update_self]
      exact futexSleep_of_place sleeping

/-- In every run in which nobody goes to sleep while a returned `unlock` is on
its way to memory, no thread sleeps on while the lock is free, all stores have
reached memory and nobody else is awake inside `lock` or `unlock`. -/
theorem not_stranded (configured : cfg.withFutex = true) {trace : List (Tid × LockOpsEvent)}
    {s : Machine Tid (LockOpsBase Tid) LockOpsPc} (run : (system cfg).Run sleepsDrained trace s) :
    ¬Stranded s := by
  rintro ⟨free, drained, nobodyInside, t, asleep⟩
  have owned := owned_of_run run
  rcases (alert_of_run configured run).2 with nobody | ⟨u, notApart, awake⟩
  · rw [nobody] at asleep
    cases asleep
  · have outside : (s.thread u).inside = false := by
      rw [← Bool.not_eq_true]
      exact fun inside => awake (nobodyInside u inside)
    have holds : places s u = .holding := ((inside_place _).mp outside).resolve_left notApart
    have taken := owned.taken u (Or.inl (by rw [holds]; rfl))
    rw [free] at taken
    exact absurd taken (by decide)

end runs

/-! ## Two threads -/

/-- No spinning, no yielding. -/
def eagerConfig : LockOpsConfig := ⟨1, 0, false, false, true⟩

instance (s s' : Machine Bool (LockOpsBase Bool) LockOpsPc) (t : Bool) :
    Decidable (SleepsDrained s t s') :=
  inferInstanceAs (Decidable (_ -> _ -> forall _, _ -> _))

/-- One thread takes the lock and the other fails to until it is registered. -/
def register : List (Bool × LockOpsAction Bool) :=
  [(false, .callLock), (false, .run), (false, .run), (true, .callLock), (true, .run), (true, .run),
    (true, .run)]

/-- The sleeper is woken by an `unlock` that finds it registered. -/
def wakeUp : List (Bool × LockOpsAction Bool) :=
  register ++ [(true, .run), (false, .callUnlock), (false, .run), (false, .run), (false, .drain),
    (false, .wake (some true))]

theorem not_stranded_wakeUp :
    let s := ((program Bool eagerConfig).play wakeUp (initial Bool)).1
    s.shared.tso.memory .mem = kUnlocked ∧ s.thread true = .futexSleep ∧ ¬Stranded s := by
  have small : forall s : Machine Bool (LockOpsBase Bool) LockOpsPc, Countable s :=
    fun _ => encard_lt_of_card (by decide) _
  have sound : forall trace (s : Machine Bool (LockOpsBase Bool) LockOpsPc)
      (label : Bool × LockOpsEvent) s', decide (SleepsDrained s label.1 s') = true ->
        sleepsDrained trace s label s' :=
    fun _ _ _ s' allowed => ⟨small s', of_decide_eq_true allowed⟩
  exact ⟨by decide, by decide, not_stranded rfl
    (Program.run_play_checked sound initial_init wakeUp (by decide))⟩

/-- The `unlock` reads the count before its store reaches memory, and the other
thread registers and goes to sleep in between. -/
def missed : List (Bool × LockOpsAction Bool) :=
  (false, .callLock) :: List.replicate 2 (false, .run) ++ (true, .callLock) ::
    List.replicate 2 (true, .run) ++ [(false, .callUnlock), (false, .run), (false, .run)] ++
    List.replicate 2 (true, .run) ++ [(false, .drain)]

theorem stranded_missed :
    exists trace, exists s : Machine Bool (LockOpsBase Bool) LockOpsPc,
      (system eagerConfig).Run TransitionSystem.unguarded trace s ∧ Stranded s := by
  have run : (system eagerConfig).Run TransitionSystem.unguarded
      ((program Bool eagerConfig).play missed (initial Bool)).2
      ((program Bool eagerConfig).play missed (initial Bool)).1 :=
    Program.run_play initial_init missed (by decide)
  exact ⟨_, _, run, by decide, by decide, by decide, true, by decide⟩

end LockOps

end Locks
end Autolock
