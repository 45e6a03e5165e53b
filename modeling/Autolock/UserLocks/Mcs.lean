import Autolock.Concurrency.Since
import Autolock.Concurrency.Exclusive
import Autolock.Concurrency.Threads
import Autolock.UserLocks.AutolockPage
import Autolock.UserLocks.Clh
import Autolock.UserLocks.LockWait

namespace Autolock
namespace UserLocks

open Concurrency

/-!
# The MCS lock `I_mcs_lock_base`

Every thread has a node of its own, which is named after the thread.  A thread
puts its node at the tail of a queue, links it behind the node that was there
before, and waits on its own node; `unlock` looks for the node behind its own.

The recheck of the wait compares the word of the node with a constant of the CLH
lock.  The flag `autolock` is `I_WITH_AUTOLOCK`; the page has been mapped.
-/

/-- `I_mcs_node_t` -/
structure McsNode (Tid : Type) where
  mem : UInt32
  next : Option Tid

namespace McsNode

def locked : UInt32 := 1
def unlocked : UInt32 := 0
def pauseIters : UInt32 := 128

end McsNode

/-- `I_mcs_lock_base_t` with the nodes, and the threads that the kernel has put
to sleep on the word of their node. -/
structure McsLock (Tid : Type) where
  tail : Option Tid
  node : Tid -> McsNode Tid
  asleep : Tid -> Bool

inductive McsCall where
  | lock
  | trylock
  deriving DecidableEq, Repr

/-- The next access of a thread.  In `lock` the variable `tail` is the thread
before it; in `unlock` the variable `next` is `none` while it has no value. -/
inductive McsPc (Tid : Type) where
  | outside
  | loadTail
  | initMem (call : McsCall)
  | initNext (call : McsCall)
  | tryExchange
  | exchangeTail
  | setWatchMem (tail : Tid)
  | setWatchFor (tail : Tid)
  | setWatchNeq (tail : Tid)
  | link (tail : Tid)
  | pausing (tail : Tid) (tmpWaitIters : UInt32)
  | futexWait (tail : Tid)
  | sleeping (tail : Tid)
  | disarm
  | returning
  | holding
  | loadNext
  | clearTail
  | awaitNext
  | wake (next : Option Tid)
  deriving DecidableEq, Repr

structure McsThread (Tid : Type) where
  pc : McsPc Tid
  page : KernelAutolockAbi Tid

/-- The client's calls and the steps that follow them.  A compare-exchange that
may fail, or a sleep, may end without cause; a pointer without a value may be
that of any node or of none. -/
inductive McsAction (Tid : Type) where
  | elsewhere (page : KernelAutolockAbi Tid)
  | callLock
  | callTrylock
  | callUnlock
  | run
  | spurious
  | indeterminate (target : Option Tid)

inductive McsEvent (Tid : Type) where
  | internal
  | trylockFailed (ret : Int)
  | trylockAcquired (ret : Int)
  /-- the exchange on `lock->tail`, and what it has found there -/
  | exchanged (tail : Option Tid)
  /-- the end of the wait behind another thread -/
  | entered
  | lockReturned (ret : Int)
  /-- `unlock` has found no other thread -/
  | cleared (ret : Int)
  /-- `futex_wake` on the word of this node -/
  | woke (next : Option Tid)
  deriving DecidableEq, Repr

namespace Mcs

variable {Tid : Type} [DecidableEq Tid]

/-- The label `I_clh_has_lock`. -/
def hasLock (autolock : Bool) : McsPc Tid :=
  if autolock then .disarm else .returning

/-- `futex_wake(&(next->mem), 1)`: nobody but its owner sleeps on a node. -/
def futexWake (lock : McsLock Tid) (next : Option Tid) : McsLock Tid :=
  match next with
  | none => lock
  | some u => { lock with asleep := Function.update lock.asleep u false }

/-- One atomic step of one thread. -/
def step (autolock : Bool) (t : Tid) (action : McsAction Tid) (lock : McsLock Tid)
    (l : McsThread Tid) : Option (McsLock Tid × McsThread Tid × McsEvent Tid) :=
  match l.pc, action with
  | .outside, .elsewhere page => some (lock, { l with page := page }, .internal)
  | .outside, .callLock => some (lock, { l with pc := .initMem .lock }, .internal)
  -- `I_mcs_lock_base_trylock`
  | .outside, .callTrylock => some (lock, { l with pc := .loadTail }, .internal)
  | .loadTail, .run =>
      match lock.tail with
      | some _ => some (lock, { l with pc := .outside }, .trylockFailed iFailure)
      | none => some (lock, { l with pc := .initMem .trylock }, .internal)
  | .tryExchange, .run =>
      match lock.tail with
      | some _ => some (lock, { l with pc := .outside }, .trylockFailed iFailure)
      | none =>
          some ({ lock with tail := some t }, { l with pc := .holding }, .trylockAcquired iSuccess)
  | .tryExchange, .spurious => some (lock, { l with pc := .outside }, .trylockFailed iFailure)
  -- `I_mcs_lock_base_node_init`
  | .initMem call, .run =>
      some ({ lock with
          node := Function.update lock.node t { lock.node t with mem := McsNode.unlocked } },
        { l with pc := .initNext call }, .internal)
  | .initNext call, .run =>
      some ({ lock with node := Function.update lock.node t { lock.node t with next := none } },
        { l with
          pc := match call with
            | .lock => .exchangeTail
            | .trylock => .tryExchange },
        .internal)
  -- `I_mcs_lock_base_lock`
  | .exchangeTail, .run =>
      some ({ lock with tail := some t },
        { l with
          pc := match lock.tail with
            | none => .returning
            | some tail => if autolock then .setWatchMem tail else .link tail },
        .exchanged lock.tail)
  | .setWatchMem tail, .run =>
      some (lock, ⟨.setWatchFor tail, l.page.autolockSetKernelWatchMem (some t)⟩, .internal)
  | .setWatchFor tail, .run =>
      some (lock, ⟨.setWatchNeq tail, l.page.autolockSetKernelWatchFor ClhNode.locked⟩, .internal)
  | .setWatchNeq tail, .run =>
      some (lock, ⟨.link tail, l.page.autolockSetKernelWatchNeq 0⟩, .internal)
  | .link tail, .run =>
      some ({ lock with
          node := Function.update lock.node tail { lock.node tail with next := some t } },
        { l with pc := .pausing tail (lockWaitStart McsNode.pauseIters) }, .internal)
  | .pausing tail tmpWaitIters, .run =>
      if (lock.node t).mem ≠ ClhNode.unlocked then
        some (lock, { l with pc := hasLock autolock }, .entered)
      else
        match lockWaitNext tmpWaitIters with
        | some tmpWaitIters' =>
            some (lock, { l with pc := .pausing tail tmpWaitIters' }, .internal)
        | none => some (lock, { l with pc := .futexWait tail }, .internal)
  | .futexWait tail, .run =>
      if (lock.node t).mem = McsNode.unlocked then
        some ({ lock with asleep := Function.update lock.asleep t true },
          { l with pc := .sleeping tail }, .internal)
      else some (lock, { l with pc := hasLock autolock }, .entered)
  | .sleeping _, .run =>
      if lock.asleep t then none else some (lock, { l with pc := hasLock autolock }, .entered)
  | .sleeping _, .spurious =>
      some ({ lock with asleep := Function.update lock.asleep t false },
        { l with pc := hasLock autolock }, .entered)
  | .disarm, .run =>
      some (lock, ⟨.returning, l.page.autolockSetKernelWatchMem none⟩, .internal)
  | .returning, .run => some (lock, { l with pc := .holding }, .lockReturned iSuccess)
  -- `I_mcs_lock_base_unlock`
  | .holding, .callUnlock => some (lock, { l with pc := .loadNext }, .internal)
  | .loadNext, .run =>
      match (lock.node t).next with
      | none => some (lock, { l with pc := .clearTail }, .internal)
      -- `next` has not been assigned
      | some _ => some (lock, { l with pc := .wake none }, .internal)
  | .clearTail, .run =>
      if lock.tail = some t then
        some ({ lock with tail := none }, { l with pc := .outside }, .cleared iSuccess)
      else some (lock, { l with pc := .awaitNext }, .internal)
  | .awaitNext, .run =>
      match (lock.node t).next with
      | none => some (lock, { l with pc := .awaitNext }, .internal)
      | some next => some (lock, { l with pc := .wake (some next) }, .internal)
  -- behind the wake `unlock` ends without a return value
  | .wake (some next), .run =>
      some (futexWake lock (some next), { l with pc := .outside }, .woke (some next))
  | .wake none, .indeterminate target =>
      some (futexWake lock target, { l with pc := .outside }, .woke target)
  | _, _ => none

def program (Tid : Type) [DecidableEq Tid] (autolock : Bool) :
    Program Tid (McsLock Tid) (McsThread Tid) (McsAction Tid) (McsEvent Tid) where
  step := step autolock

/-- `I_mcs_lock_base_init`, with nodes that have any contents. -/
def init (s : Machine Tid (McsLock Tid) (McsThread Tid)) : Prop :=
  s.shared.tail = none ∧ (forall t, s.shared.asleep t = false) ∧
    forall t, (s.thread t).pc = .outside

abbrev system (Tid : Type) [DecidableEq Tid] (autolock : Bool) :
    TransitionSystem (Machine Tid (McsLock Tid) (McsThread Tid)) (Tid × McsEvent Tid) :=
  (program Tid autolock).system init

/-! ## What is to be shown -/

/-- Between the end of the wait, or an exchange that has found nobody, and the
store or the call that ends `unlock`. -/
def holds : McsPc Tid -> Prop
  | .disarm | .returning | .holding | .loadNext | .clearTail | .awaitNext | .wake _ => True
  | _ => False

/-- The thread that a thread waits behind, and whether it has linked its node there. -/
def waiting? : McsPc Tid -> Option (Tid × Bool)
  | .setWatchMem tail | .setWatchFor tail | .setWatchNeq tail | .link tail => some (tail, false)
  | .pausing tail _ | .futexWait tail | .sleeping tail => some (tail, true)
  | _ => none

/-- From the exchange on `lock->tail` to the end of `unlock`. -/
def Enqueued (pc : McsPc Tid) : Prop :=
  holds pc ∨ (waiting? pc).isSome = true

def pcs (s : Machine Tid (McsLock Tid) (McsThread Tid)) (t : Tid) : McsPc Tid :=
  (s.thread t).pc

/-- The thread puts its node at the tail. -/
def Enqueues (t : Tid) (label : Tid × McsEvent Tid) : Prop :=
  label.1 = t ∧ match label.2 with
    | .exchanged _ | .trylockAcquired _ => True
    | _ => False

instance (t : Tid) : DecidablePred (Enqueues t) := by
  intro label
  unfold Enqueues
  split <;> infer_instance

/-- When `v` enqueued last, it found `u` before it. -/
def Predecessor (trace : List (Tid × McsEvent Tid)) (v u : Tid) : Prop :=
  Since (fun label => ¬Enqueues v label) (fun label => label = (v, .exchanged (some u))) trace

/-- The same, and `u` has not enqueued again since. -/
def Behind (trace : List (Tid × McsEvent Tid)) (v u : Tid) : Prop :=
  Since (fun label => ¬Enqueues v label ∧ ¬Enqueues u label)
    (fun label => label = (v, .exchanged (some u))) trace

/-- Since `v` enqueued last, `u` has woken its node. -/
def WokenBy (trace : List (Tid × McsEvent Tid)) (v u : Tid) : Prop :=
  Since (fun label => ¬Enqueues v label) (fun label => label = (u, .woke (some v))) trace

instance (trace : List (Tid × McsEvent Tid)) (v u : Tid) : Decidable (Predecessor trace v u) :=
  decidableSince _ _ trace

instance (trace : List (Tid × McsEvent Tid)) (v u : Tid) : Decidable (WokenBy trace v u) :=
  decidableSince _ _ trace

/-- The `unlock` of its predecessor has released the thread. -/
def Released (trace : List (Tid × McsEvent Tid)) (v : Tid) : Prop :=
  exists u, Predecessor trace v u ∧ WokenBy trace v u

/-- `v` is the successor of `u`, and nobody has released it. -/
def Awaits (trace : List (Tid × McsEvent Tid)) (v u : Tid) : Prop :=
  Behind trace v u ∧ forall w, ¬WokenBy trace v w

/-- The lock is handed from each thread to the one behind it and to no other. -/
structure HandsOver (trace : List (Tid × McsEvent Tid))
    (s : Machine Tid (McsLock Tid) (McsThread Tid)) : Prop where
  exclusive : Exclusive holds (pcs s)
  /-- A thread behind another enters after the release. -/
  entered : forall before v, before ++ [(v, .entered)] <+: trace -> Released before v
  /-- What is released is the successor, and only once. -/
  woke : forall before u next, before ++ [(u, .woke next)] <+: trace ->
    exists v, next = some v ∧ Awaits before v u
  /-- `unlock` gives the lock up only if there is no successor. -/
  cleared : forall before u ret, before ++ [(u, .cleared ret)] <+: trace ->
    forall v, ¬Behind before v u
  /-- `unlock` waits for a successor only if there is one. -/
  awaited : forall u, pcs s u = .awaitNext -> exists v, Awaits trace v u
  /-- Having found a successor, `unlock` goes on with that. -/
  found : forall u next, pcs s u = .wake next -> exists v, next = some v ∧ Awaits trace v u
  /-- Whoever waits has been released or is behind a thread that has not ended its `unlock`. -/
  attended : forall v, (waiting? (pcs s v)).isSome = true ->
    Released trace v ∨ exists u, Awaits trace v u ∧ Enqueued (pcs s u)

/-- Nobody looks at its node before the release, which the look does not wait
for, and no `unlock` finds its successor linked at once. -/
def inTurn : TransitionSystem.Guard (Machine Tid (McsLock Tid) (McsThread Tid))
    (Tid × McsEvent Tid) :=
  fun trace s label _ =>
    (forall tail tmpWaitIters, pcs s label.1 = .pausing tail tmpWaitIters ->
      Released trace label.1) ∧
    (pcs s label.1 = .loadNext -> (s.shared.node label.1).next = none)

end Mcs

end UserLocks
end Autolock
