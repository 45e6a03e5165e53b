import Autolock.Locks.LockOpsWakeup

namespace Autolock
namespace Locks

open Concurrency

/-!
# What the generic lock makes of plain stores

The store that releases the lock is a plain one, and so are the stores in a
critical section.  They share one buffer, which memory sees in order: when the
lock looks free, everything that was stored under it is in memory.  So the holder
reads what was stored last, by whatever thread.
-/

/-- The lock with the data that it guards.  The stores on the way are in one order
for each thread; `none` stands for the store of `unlock`, which the lock keeps. -/
structure GuardedData (Tid Addr Word : Type) where
  lock : LockOpsBase Tid
  memory : Addr -> Word
  order : Tid -> List (Option (Addr × Word))

/-- A step of the lock, or an access to the data. -/
inductive GuardedAction (Tid Addr Word : Type) where
  | lock (action : LockOpsAction Tid)
  | load (a : Addr)
  | store (a : Addr) (w : Word)

inductive GuardedEvent (Addr Word : Type) where
  | lock (event : LockOpsEvent)
  | loaded (a : Addr) (w : Word)
  | stored (a : Addr) (w : Word)
  /-- a store to the data has reached memory -/
  | drained
  deriving DecidableEq, Repr

namespace GuardedData

variable {Tid Addr Word : Type} [DecidableEq Tid] [DecidableEq Addr]

/-- The stores to the data that memory has not seen. -/
def pending (s : GuardedData Tid Addr Word) (t : Tid) : List (Addr × Word) :=
  (s.order t).filterMap id

def load (s : GuardedData Tid Addr Word) (t : Tid) (a : Addr) : Word :=
  (StoreBuffers.newest a (s.pending t)).getD (s.memory a)

def push (s : GuardedData Tid Addr Word) (t : Tid) (store : Option (Addr × Word)) :
    GuardedData Tid Addr Word :=
  { s with order := Function.update s.order t (s.order t ++ [store]) }

/-- Where the next step of the lock is a locked instruction or a wake-up. -/
def fences : LockOpsPc -> Bool
  | .tryExchange _ | .addWaiter | .subWaiter | .unlockWake => true
  | _ => false

/-- The data is accessed by the holder only. -/
def step (cfg : LockOpsConfig) (t : Tid) (action : GuardedAction Tid Addr Word)
    (s : GuardedData Tid Addr Word) (pc : LockOpsPc) :
    Option (GuardedData Tid Addr Word × LockOpsPc × GuardedEvent Addr Word) :=
  match action with
  | .load a => if pc = .holding then some (s, pc, .loaded a (s.load t a)) else none
  | .store a w => if pc = .holding then some (s.push t (some (a, w)), pc, .stored a w) else none
  | .lock .drain =>
      match s.order t with
      | [] => none
      | some (a, w) :: stores =>
          some ({ s with
              memory := Function.update s.memory a w
              order := Function.update s.order t stores }, pc, .drained)
      | none :: stores =>
          (LockOps.step cfg t .drain s.lock pc).map fun result =>
            ({ s with lock := result.1, order := Function.update s.order t stores },
              result.2.1, .lock result.2.2)
  | .lock action =>
      if fences pc ∧ s.order t ≠ [] then none
      else
        (LockOps.step cfg t action s.lock pc).map fun result =>
          let s' := { s with lock := result.1 }
          (if pc = .unlockStore then s'.push t none else s', result.2.1, .lock result.2.2)

def program (Tid Addr Word : Type) [DecidableEq Tid] [DecidableEq Addr] (cfg : LockOpsConfig) :
    Program Tid (GuardedData Tid Addr Word) LockOpsPc (GuardedAction Tid Addr Word)
      (GuardedEvent Addr Word) where
  step := step cfg

/-- The lock is initialized, and the data is in memory. -/
def initial (Tid : Type) (memory : Addr -> Word) :
    Machine Tid (GuardedData Tid Addr Word) LockOpsPc where
  shared := ⟨(LockOps.initial Tid).shared, memory, fun _ => []⟩
  thread := fun _ => .outside

def init (memory : Addr -> Word) (s : Machine Tid (GuardedData Tid Addr Word) LockOpsPc) : Prop :=
  s = initial Tid memory

omit [DecidableEq Tid] [DecidableEq Addr] in
theorem initial_init (memory : Addr -> Word) : init memory (initial Tid memory) := rfl

abbrev system (cfg : LockOpsConfig) (memory : Addr -> Word) :=
  (program Tid Addr Word cfg).system (init memory)

/-! ## What is to be shown -/

def stored? : GuardedEvent Addr Word -> Option (Addr × Word)
  | .stored a w => some (a, w)
  | _ => none

/-- What was stored last at an address, or was there from the beginning. -/
def latest (memory : Addr -> Word) (a : Addr) (trace : List (Tid × GuardedEvent Addr Word)) : Word :=
  (StoreBuffers.newest a (trace.filterMap fun label => stored? label.2)).getD (memory a)

/-- Every load reads what was stored last. -/
def ReadsLatest (memory : Addr -> Word) (trace : List (Tid × GuardedEvent Addr Word)) : Prop :=
  forall before label a w, before ++ [label] <+: trace -> label.2 = .loaded a w ->
    w = latest memory a before

/-! ## Loads and stores -/

section access

variable {s : GuardedData Tid Addr Word} {t : Tid} {memory : Addr -> Word}
  {trace : List (Tid × GuardedEvent Addr Word)}

omit [DecidableEq Addr] in
theorem order_push_self (s : GuardedData Tid Addr Word) (t : Tid) (store : Option (Addr × Word)) :
    (s.push t store).order t = s.order t ++ [store] :=
  Function.update_self ..

omit [DecidableEq Addr] in
theorem order_push_of_ne (s : GuardedData Tid Addr Word) {t u : Tid} (different : u ≠ t)
    (store : Option (Addr × Word)) : (s.push t store).order u = s.order u :=
  Function.update_of_ne different ..

omit [DecidableEq Addr] in
theorem pending_push (s : GuardedData Tid Addr Word) (t : Tid) (store : Option (Addr × Word)) :
    (s.push t store).pending t = s.pending t ++ store.toList := by
  rw [pending, order_push_self, List.filterMap_append]
  cases store <;> rfl

theorem load_push_some (s : GuardedData Tid Addr Word) (t : Tid) (a b : Addr) (w : Word) :
    (s.push t (some (b, w))).load t a = if b = a then w else s.load t a := by
  rw [load, pending_push, Option.toList_some, StoreBuffers.newest_concat]
  by_cases same : b = a
  · rw [if_pos same, if_pos same]
    rfl
  · rw [if_neg same, if_neg same]
    rfl

theorem load_push_none (s : GuardedData Tid Addr Word) (t : Tid) (a : Addr) :
    (s.push t none).load t a = s.load t a := by
  rw [load, pending_push, Option.toList_none, List.append_nil]
  rfl

omit [DecidableEq Tid] in
theorem latest_concat (memory : Addr -> Word) (a : Addr)
    (trace : List (Tid × GuardedEvent Addr Word)) (t : Tid) (event : GuardedEvent Addr Word) :
    latest memory a (trace ++ [(t, event)]) =
      match stored? event with
      | some (b, w) => if b = a then w else latest memory a trace
      | none => latest memory a trace := by
  rw [latest, List.filterMap_append, List.filterMap_cons, List.filterMap_nil]
  cases stored : stored? event with
  | none => rw [List.append_nil, latest]
  | some store =>
      rcases store with ⟨b, w⟩
      dsimp only
      rw [StoreBuffers.newest_concat]
      by_cases same : b = a
      · rw [if_pos same, if_pos same]
        rfl
      · rw [if_neg same, if_neg same, latest]

end access

/-! ## The owner of the lock has the newest data -/

open LockOps in
/-- Only the owner of the lock has stores on the way, and what it would read is what was
stored last.  Without an owner memory has it all. -/
structure Guards (memory : Addr -> Word) (trace : List (Tid × GuardedEvent Addr Word))
    (s : GuardedData Tid Addr Word) (places : Tid -> Place) : Prop where
  owned : Owned s.lock places
  others : forall t, ¬Owner s.lock places t -> s.order t = []
  holding : forall t, (places t).holdsLock = true -> none ∉ s.order t
  released : forall t, s.lock.tso.buffer t ≠ [] -> exists stores,
    s.order t = List.map some stores ++ [none]
  owner : forall t, Owner s.lock places t -> forall a, s.load t a = latest memory a trace
  free : (forall t, ¬Owner s.lock places t) -> forall a, s.memory a = latest memory a trace

section guards

open LockOps

variable {memory : Addr -> Word} {trace : List (Tid × GuardedEvent Addr Word)}
  {s : GuardedData Tid Addr Word} {places : Tid -> Place} {t : Tid} {there' : Place}
  {lock' : LockOpsBase Tid}

theorem notHolds_of_mayBuffer {there : Place} (may : there.mayBuffer = true) :
    there.holdsLock = false := by
  revert may
  cases there <;> decide

omit [DecidableEq Tid] in
theorem Guards.quiet (guards : Guards memory trace s places) {event : GuardedEvent Addr Word}
    (quiet : stored? event = none) : Guards memory (trace ++ [(t, event)]) s places := by
  have same : forall a, latest memory a (trace ++ [(t, event)]) = latest memory a trace := by
    intro a
    rw [latest_concat, quiet]
  exact
    { owned := guards.owned
      others := guards.others
      holding := guards.holding
      released := guards.released
      owner := fun u isOwner a => (guards.owner u isOwner a).trans (same a).symm
      free := fun nobody a => (guards.free nobody a).trans (same a).symm }

omit [DecidableEq Tid] in
/-- A step of the lock or of a buffer stores no data and loads none. -/
theorem Guards.noAccess (guards : Guards memory trace s places) {event : GuardedEvent Addr Word}
    (noAccess : event = .drained ∨ exists lockEvent, event = .lock lockEvent) :
    Guards memory (trace ++ [(t, event)]) s places ∧
      forall a w, event = .loaded a w -> w = latest memory a trace := by
  refine ⟨guards.quiet ?_, fun a w loads => ?_⟩
  · rcases noAccess with rfl | ⟨lockEvent, rfl⟩ <;> rfl
  · rcases noAccess with rfl | ⟨lockEvent, rfl⟩ <;> cases loads

/-- The holder stores. -/
theorem Guards.store (guards : Guards memory trace s places) (holds : (places t).holdsLock = true)
    (a : Addr) (w : Word) :
    Guards memory (trace ++ [(t, .stored a w)]) (s.push t (some (a, w))) places := by
  have mine : Owner s.lock places t := Or.inl holds
  have buffer : s.lock.tso.buffer t = [] := by
    by_contra buffered
    rw [notHolds_of_mayBuffer (guards.owned.buffered t buffered).2] at holds
    cases holds
  have only : forall u, Owner s.lock places u -> u = t := fun u isOwner =>
    guards.owned.unique u t isOwner mine
  refine ⟨guards.owned, fun u notOwner => ?_, fun u holds' => ?_, fun u buffered => ?_,
    fun u isOwner b => ?_, fun nobody => absurd mine (nobody t)⟩
  · have different : u ≠ t := fun same => notOwner (same ▸ mine)
    rw [order_push_of_ne s different]
    exact guards.others u notOwner
  · cases only u (Or.inl holds')
    rw [order_push_self]
    simpa using guards.holding t holds
  · cases only u (Or.inr buffered)
    exact absurd buffer buffered
  · cases only u isOwner
    rw [load_push_some, latest_concat]
    dsimp only [stored?]
    rw [guards.owner t mine b]

omit [DecidableEq Tid] in
theorem Guards.owner_of_order (guards : Guards memory trace s places)
    (some : s.order t ≠ []) : Owner s.lock places t :=
  not_not.mp fun notOwner => some (guards.others t notOwner)

/-- A store to the data reaches memory. -/
theorem Guards.drainData (guards : Guards memory trace s places) {a : Addr} {w : Word}
    {stores : List (Option (Addr × Word))} (first : s.order t = some (a, w) :: stores) :
    Guards memory trace { s with
      memory := Function.update s.memory a w
      order := Function.update s.order t stores } places := by
  have mine : Owner s.lock places t := guards.owner_of_order (by rw [first]; exact List.cons_ne_nil _ _)
  have only : forall u, Owner s.lock places u -> u = t := fun u isOwner =>
    guards.owned.unique u t isOwner mine
  refine ⟨guards.owned, fun u notOwner => ?_, fun u holds => ?_, fun u buffered => ?_,
    fun u isOwner b => ?_, fun nobody => absurd mine (nobody t)⟩
  · have different : u ≠ t := fun same => notOwner (same ▸ mine)
    exact (Function.update_of_ne different ..).trans (guards.others u notOwner)
  · cases only u (Or.inl holds)
    have kept := guards.holding t holds
    rw [first] at kept
    dsimp only
    rw [Function.update_self]
    exact fun member => kept (List.mem_cons_of_mem _ member)
  · cases only u (Or.inr buffered)
    rcases guards.released t buffered with ⟨before, order⟩
    rw [first] at order
    dsimp only
    rw [Function.update_self]
    cases before with
    | nil => cases order
    | cons _ before => exact ⟨before, (List.cons.inj order).2⟩
  · cases only u isOwner
    rw [← guards.owner t mine b, load, load, pending, pending, first]
    dsimp only
    have oldest : List.filterMap id (some (a, w) :: stores) = (a, w) :: stores.filterMap id := rfl
    rw [Function.update_self, Function.update_apply, oldest, StoreBuffers.newest_cons_getD]
    simp only [eq_comm]

/-- The store of `unlock` reaches memory, behind all the others. -/
theorem Guards.drainLock (guards : Guards memory trace s places)
    {stores : List (Option (Addr × Word))} (first : s.order t = none :: stores)
    {tso : StoreBuffers Tid LockWord UInt32} (drained : s.lock.tso.drain t = some tso) :
    Guards memory trace { s with
      lock := { s.lock with tso := tso }
      order := Function.update s.order t stores } places := by
  have owned := guards.owned.drain drained
  rcases StoreBuffers.drain_eq_some drained with ⟨a, w, rest, buffered, rfl⟩
  have nonempty : s.lock.tso.buffer t ≠ [] := by
    rw [buffered]
    exact List.cons_ne_nil _ _
  have only := (guards.owned.buffered t nonempty).1
  rw [buffered] at only
  cases only
  have nobody : forall u, ¬Owner { s.lock with tso := ⟨Function.update s.lock.tso.memory .mem kUnlocked,
      Function.update s.lock.tso.buffer t []⟩ } places u := by
    intro u isOwner
    have taken := owned.taken u isOwner
    dsimp only at taken
    rw [Function.update_self] at taken
    exact absurd taken (by decide)
  have mine : Owner s.lock places t := Or.inr nonempty
  have last : stores = [] := by
    rcases guards.released t nonempty with ⟨before, order⟩
    rw [first] at order
    cases before with
    | nil => exact (List.cons.inj order).2
    | cons => cases order
  subst last
  refine ⟨owned, fun u _ => ?_, fun u holds => absurd (Or.inl holds) (nobody u),
    fun u buffered' => absurd (Or.inr buffered') (nobody u),
    fun u isOwner => absurd isOwner (nobody u), fun _ a => ?_⟩
  · by_cases itself : u = t
    · rw [itself]
      exact Function.update_self ..
    · exact (Function.update_of_ne itself ..).trans
        (guards.others u fun isOwner => itself (guards.owned.unique u t isOwner mine))
  · have value := guards.owner t mine a
    rw [load, pending, first] at value
    exact value

omit [DecidableEq Tid] [DecidableEq Addr] in
theorem exists_map_some {stores : List (Option (Addr × Word))} (all : none ∉ stores) :
    exists data, stores = List.map some data := by
  induction stores with
  | nil => exact ⟨[], rfl⟩
  | cons store stores inductionHypothesis =>
      rw [List.mem_cons, not_or] at all
      rcases inductionHypothesis all.2 with ⟨data, rfl⟩
      rcases Option.ne_none_iff_exists'.mp (Ne.symm all.1) with ⟨first, rfl⟩
      exact ⟨first :: data, rfl⟩

/-- The lock is released with a store behind all the others. -/
theorem Guards.release (guards : Guards memory trace s places) (here : places t = .unlocking)
    (may : there'.mayBuffer = true) :
    Guards memory trace (GuardedData.push
      { s with lock := { s.lock with tso := s.lock.tso.store t .mem kUnlocked } } t none)
      (Function.update places t there') := by
  have owned := guards.owned.store here may
  have held : (places t).holdsLock = true := by rw [here]; rfl
  have mine : Owner s.lock places t := Or.inl held
  have stored : (s.lock.tso.store t .mem kUnlocked).buffer t ≠ [] := by
    simp [StoreBuffers.store]
  have mine' : Owner { s.lock with tso := s.lock.tso.store t .mem kUnlocked }
      (Function.update places t there') t := Or.inr stored
  have only := fun u isOwner => owned.unique u t isOwner mine'
  refine ⟨owned, fun u notOwner => ?_, fun u holds => ?_, fun u buffered => ?_,
    fun u isOwner a => ?_, fun nobody => absurd mine' (nobody t)⟩
  · have different : u ≠ t := fun same => notOwner (same ▸ mine')
    rw [order_push_of_ne _ different]
    exact guards.others u fun isOwner => different (guards.owned.unique u t isOwner mine)
  · cases only u (Or.inl holds)
    rw [Function.update_self, notHolds_of_mayBuffer may] at holds
    cases holds
  · cases only u (Or.inr buffered)
    rw [order_push_self]
    rcases exists_map_some (guards.holding t held) with ⟨data, order⟩
    exact ⟨data, congrArg (· ++ [none]) order⟩
  · cases only u isOwner
    rw [load_push_none]
    exact guards.owner t mine a

/-- When the lock is taken, memory has all that was stored. -/
theorem Guards.acquire (guards : Guards memory trace s places)
    (free : s.lock.tso.memory .mem ≠ kLocked) :
    Guards memory trace { s with lock := s.lock.withWord .mem kLocked }
      (Function.update places t .holding) := by
  have nobody : forall u, ¬Owner s.lock places u := fun u isOwner =>
    free (guards.owned.taken u isOwner)
  have empty : forall u, s.order u = [] := fun u => guards.others u (nobody u)
  have mine : Owner (s.lock.withWord .mem kLocked) (Function.update places t .holding) t := by
    refine Or.inl ?_
    rw [Function.update_self]
    rfl
  refine ⟨guards.owned.acquire free, fun u _ => empty u, fun u _ => ?_,
    fun u buffered => absurd (Or.inr buffered) (nobody u), fun u _ a => ?_,
    fun nobody' => absurd mine (nobody' t)⟩
  · dsimp only
    rw [empty u]
    exact List.not_mem_nil
  · rw [load, pending]
    dsimp only
    rw [empty u]
    exact guards.free nobody a

/-- The other steps of the lock change neither its owner nor a buffer. -/
theorem Guards.stay (guards : Guards memory trace s places)
    (owned : Owned lock' (Function.update places t there'))
    (buffer : lock'.tso.buffer = s.lock.tso.buffer)
    (holds : there'.holdsLock = (places t).holdsLock) :
    Guards memory trace { s with lock := lock' } (Function.update places t there') := by
  have held : forall u, (Function.update places t there' u).holdsLock = (places u).holdsLock := by
    intro u
    by_cases itself : u = t
    · rw [itself, Function.update_self, holds]
    · rw [Function.update_of_ne itself]
  have owner : forall u, Owner lock' (Function.update places t there') u <-> Owner s.lock places u := by
    intro u
    rw [Owner, Owner, buffer, held]
  exact
    { owned := owned
      others := fun u notOwner => guards.others u (mt (owner u).mpr notOwner)
      holding := fun u holds => guards.holding u ((held u).symm.trans holds)
      released := fun u buffered => guards.released u (buffer ▸ buffered)
      owner := fun u isOwner => guards.owner u ((owner u).mp isOwner)
      free := fun nobody => guards.free fun u isOwner => nobody u ((owner u).mpr isOwner) }

end guards

/-! ## Every run -/

section runs

open LockOps

variable {cfg : LockOpsConfig} {memory : Addr -> Word}
  {trace : List (Tid × GuardedEvent Addr Word)}

/-- Only the store of `unlock` enters a buffer. -/
theorem buffer_of_step {t : Tid} {action : LockOpsAction Tid} {lock lock' : LockOpsBase Tid}
    {pc pc' : LockOpsPc} {event : LockOpsEvent} (other : action ≠ .drain) (away : pc ≠ .unlockStore)
    (stepped : LockOps.step cfg t action lock pc = some (lock', pc', event)) :
    lock'.tso.buffer = lock.tso.buffer := by
  cases pc <;> cases action <;>
    simp only [LockOps.step, reduceCtorEq, not_true, ne_eq, not_false_eq_true] at stepped other away
  case tryExchange.run site =>
    rcases Option.bind_eq_some_iff.mp stepped with ⟨⟨tso, old⟩, modified, rest⟩
    rcases StoreBuffers.modify_eq_some modified with ⟨-, -, rfl⟩
    split at rest <;> cases rest <;> rfl
  case addWaiter.run | subWaiter.run =>
    rcases Option.bind_eq_some_iff.mp stepped with ⟨⟨tso, old⟩, modified, rest⟩
    rcases StoreBuffers.modify_eq_some modified with ⟨-, -, rfl⟩
    cases rest
    rfl
  case unlockWake.wake woken =>
    cases woken <;> dsimp only at stepped <;> split at stepped <;> cases stepped <;> rfl
  all_goals try (split at stepped)
  all_goals cases stepped
  all_goals rfl

theorem unlocking_of_place {pc : LockOpsPc} (here : place pc = .unlocking) : pc = .unlockStore := by
  rcases pc with _ | site | site | _ | _ | _ | _ | _ | _ | _ | _ | _ <;> first
    | rfl
    | cases here
    | cases site <;> cases here

/-- A step of the lock other than the store of `unlock` and its way to memory. -/
theorem Guards.lock {s : GuardedData Tid Addr Word} {places : Tid -> Place} {t : Tid}
    {there' : Place} {lock' : LockOpsBase Tid} (guards : Guards memory trace s places)
    (effect : StepEffect cfg t s.lock lock' (places t) there') (away : places t ≠ .unlocking)
    (buffer : lock'.tso.buffer = s.lock.tso.buffer) :
    Guards memory trace { s with lock := lock' } (Function.update places t there') := by
  have owned := effect.owned guards.owned
  generalize here : places t = there at effect away
  cases effect with
  | acquires tries empty free => exact guards.acquire free
  | stores => exact absurd rfl away
  | drains there drained =>
      rcases StoreBuffers.drain_eq_some drained with ⟨a, w, stores, buffered, rfl⟩
      have shorter := congrFun buffer t
      dsimp only at shorter
      rw [Function.update_self, buffered] at shorter
      exact absurd shorter.symm (List.cons_ne_self _ _)
  | silent => exact guards.stay owned buffer (by rw [here])
  | calls | registers | sleeps | skips | awakes | interrupted | leaves | unlocks
  | seesNobody | seesWaiters | wakes | wakesNobody =>
      exact guards.stay owned buffer (by rw [here]; rfl)

/-- The store of `unlock`. -/
theorem step_unlockStore {t : Tid} {action : LockOpsAction Tid} {lock lock' : LockOpsBase Tid}
    {pc' : LockOpsPc} {event : LockOpsEvent} (other : action ≠ .drain)
    (stepped : LockOps.step cfg t action lock .unlockStore = some (lock', pc', event)) :
    lock' = { lock with tso := lock.tso.store t .mem kUnlocked } ∧ (place pc').mayBuffer = true := by
  cases action <;> simp only [LockOps.step, reduceCtorEq, not_true, ne_eq] at stepped other
  split at stepped <;> cases stepped <;> exact ⟨rfl, rfl⟩

theorem step_guards {t : Tid} {action : GuardedAction Tid Addr Word}
    {s s' : GuardedData Tid Addr Word} {thread : Tid -> LockOpsPc} {pc' : LockOpsPc}
    {event : GuardedEvent Addr Word} (guards : Guards memory trace s fun u => place (thread u))
    (stepped : step cfg t action s (thread t) = some (s', pc', event)) :
    Guards memory (trace ++ [(t, event)]) s'
        (Function.update (fun u => place (thread u)) t (place pc')) ∧
      forall a w, event = .loaded a w -> w = latest memory a trace := by
  have unmoved : forall {pc' : LockOpsPc}, pc' = thread t ->
      Function.update (fun u => place (thread u)) t (place pc') = fun u => place (thread u) := by
    rintro pc' rfl
    exact Function.update_eq_self ..
  cases action with
  | load a =>
      simp only [step] at stepped
      split at stepped <;> cases stepped
      next holding =>
        have held : (place (thread t)).holdsLock = true := by rw [holding]; rfl
        rw [unmoved rfl]
        refine ⟨guards.quiet rfl, ?_⟩
        rintro a w ⟨⟩
        exact guards.owner t (Or.inl held) a
  | store a w =>
      simp only [step] at stepped
      split at stepped <;> cases stepped
      next holding =>
        have held : (place (thread t)).holdsLock = true := by rw [holding]; rfl
        rw [unmoved rfl]
        exact ⟨guards.store held a w, fun _ _ loads => by cases loads⟩
  | lock action =>
      by_cases isDrain : action = .drain
      · subst isDrain
        simp only [step] at stepped
        split at stepped
        · cases stepped
        · next a w stores first =>
            cases stepped
            rw [unmoved rfl]
            exact (guards.drainData first).noAccess (Or.inl rfl)
        · next stores first =>
            rcases Option.map_eq_some_iff.mp stepped with ⟨⟨lock', pc, event'⟩, inner, result⟩
            cases result
            simp only [LockOps.step, Option.map_eq_some_iff, Prod.mk.injEq] at inner
            rcases inner with ⟨tso, drained, rfl, same, rfl⟩
            rw [unmoved same.symm]
            exact (guards.drainLock first drained).noAccess (Or.inr ⟨_, rfl⟩)
      · have plain : step cfg t (.lock action) s (thread t) =
            if fences (thread t) ∧ s.order t ≠ [] then none
            else (LockOps.step cfg t action s.lock (thread t)).map fun result =>
              let s' := { s with lock := result.1 }
              (if thread t = .unlockStore then s'.push t none else s', result.2.1,
                .lock result.2.2) := by
          cases action <;> first | rfl | exact absurd rfl isDrain
        rw [plain] at stepped
        split at stepped
        · cases stepped
        · rcases Option.map_eq_some_iff.mp stepped with ⟨⟨lock', pc, event'⟩, inner, result⟩
          cases result
          refine Guards.noAccess ?_ (Or.inr ⟨_, rfl⟩)
          by_cases unlocks : thread t = .unlockStore
          · have here : place (thread t) = .unlocking := by rw [unlocks]; rfl
            rw [unlocks] at inner
            rcases step_unlockStore isDrain inner with ⟨rfl, may⟩
            dsimp only
            rw [if_pos unlocks]
            exact guards.release here may
          · dsimp only
            rw [if_neg unlocks]
            exact guards.lock (step_effect inner) (fun here => unlocks (unlocking_of_place here))
              (buffer_of_step isDrain unlocks inner)

theorem guards_of_run {s : Machine Tid (GuardedData Tid Addr Word) LockOpsPc}
    (run : (system cfg memory).Run TransitionSystem.unguarded trace s) :
    Guards memory trace s.shared (fun u => place (s.thread u)) ∧ ReadsLatest memory trace := by
  refine run.invariant (fun trace s => Guards memory trace s.shared (fun u => place (s.thread u)) ∧
    ReadsLatest memory trace) ?_ ?_
  · rintro s rfl
    have nobody : forall t, ¬Owner (LockOps.initial Tid).shared (places (LockOps.initial Tid)) t := by
      rintro t (holds | buffered)
      · cases holds
      · exact buffered rfl
    refine ⟨⟨owned_initial, fun _ _ => rfl, fun _ _ => List.not_mem_nil,
      fun t buffered => absurd (Or.inr buffered) (nobody t), fun t isOwner => absurd isOwner (nobody t),
      fun _ _ => rfl⟩, fun before label a w begins => absurd begins not_begins_nil⟩
  · rintro trace s ⟨t, event⟩ s' ⟨guards, reads⟩ moved -
    rcases Program.system_next moved with ⟨action, shared', pc', stepped, rfl⟩
    rcases step_guards guards stepped with ⟨guards', now⟩
    have moved' : (fun u => place (Function.update s.thread t pc' u)) =
        Function.update (fun u => place (s.thread u)) t (place pc') :=
      Function.comp_update place s.thread t pc'
    refine ⟨by rw [moved']; exact guards', fun before label a w begins loaded => ?_⟩
    rcases begins_concat begins with ⟨rfl, rfl⟩ | earlier
    · exact now a w loaded
    · exact reads before label a w earlier loaded

/-- Under the store buffers of x86 the holder of the lock reads what was stored last under it. -/
theorem holder_reads_latest {s : Machine Tid (GuardedData Tid Addr Word) LockOpsPc}
    (run : (system cfg memory).Run TransitionSystem.unguarded trace s) : ReadsLatest memory trace :=
  (guards_of_run run).2

end runs

/-- The second holder reads what the first one has stored, though the store that released the
lock has been on its way for a while. -/
def handOver : List (Bool × GuardedAction Bool Unit Nat) :=
  [(false, .lock .callLock), (false, .lock .run), (false, .lock .run), (false, .store () 7),
    (false, .lock .callUnlock), (false, .lock .run), (true, .lock .callLock), (false, .lock .drain),
    (false, .lock .drain), (true, .lock .run), (true, .lock .run), (true, .load ())]

/-- The lock that only spins. -/
def spinConfig : LockOpsConfig := ⟨0, 0, false, false, false⟩

theorem holder_reads_latest_handOver :
    let trace := ((program Bool Unit Nat spinConfig).play handOver (initial Bool fun _ => 0)).2
    (true, GuardedEvent.loaded () 7) ∈ trace ∧ ReadsLatest (fun _ => 0) trace := by
  have run : (system spinConfig fun _ => 0).Run TransitionSystem.unguarded
      ((program Bool Unit Nat spinConfig).play handOver (initial Bool fun _ => 0)).2
      ((program Bool Unit Nat spinConfig).play handOver (initial Bool fun _ => 0)).1 :=
    Program.run_play (initial_init fun _ => 0) handOver (by decide)
  exact ⟨by decide, holder_reads_latest run⟩

end GuardedData

end Locks
end Autolock
