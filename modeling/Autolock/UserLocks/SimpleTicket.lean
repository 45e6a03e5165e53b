import Autolock.Concurrency.LockSpec
import Autolock.Concurrency.Threads
import Autolock.Concurrency.WrappingCounter
import Autolock.UserLocks.AutolockPage

namespace Autolock
namespace UserLocks

open Concurrency

/-!
# The simple ticket lock `I_simple_ticket_lock_base`

`lock` takes a ticket from `next_count` and waits until `cur_count` shows it;
`unlock` increments `cur_count` with a separate load and store.  `trylock`
takes a ticket only if the two counters, read one after the other, are equal
and `next_count` still has the value read first.

Backing off and yielding change nothing and belong to the load that follows
them.  The flag `autolock` is `I_WITH_AUTOLOCK`.
-/

/-- The only word that a waiter of this lock watches: `lock->cur_count`. -/
inductive SimpleTicketWord where
  | curCount
  deriving DecidableEq, Repr

structure SimpleTicketLock where
  curCount : UInt32
  nextCount : UInt32
  deriving DecidableEq, Repr

/-- The next atomic step of a thread, with its local variables. -/
inductive SimpleTicketPc where
  | outside
  | tryLoadNext
  | tryLoadCur (ticketNum : UInt32)
  | tryCompareExchange (ticketNum : UInt32)
  | fetchAdd
  | firstLoad (ticketNum : UInt32)
  | setWatchMem (ticketNum : UInt32)
  | setWatchFor (ticketNum : UInt32)
  | setWatchNeq (ticketNum : UInt32)
  | loadCur (ticketNum : UInt32)
  | disarm (ticketNum : UInt32)
  | holding
  | unlockLoad
  | unlockStore (curCount : UInt32)
  deriving DecidableEq, Repr

namespace SimpleTicketPc

/-- Between the return of a successful `lock` or `trylock` and the store of `unlock`. -/
def holdsLock : SimpleTicketPc -> Bool
  | .holding | .unlockLoad | .unlockStore _ => true
  | _ => false

/-- The thread has taken a ticket and has not yet released the lock. -/
def hasTicket : SimpleTicketPc -> Bool
  | .outside | .tryLoadNext | .tryLoadCur _ | .tryCompareExchange _ | .fetchAdd => false
  | _ => true

/-- Inside `trylock`. -/
def inTrylock : SimpleTicketPc -> Bool
  | .tryLoadNext | .tryLoadCur _ | .tryCompareExchange _ => true
  | _ => false

end SimpleTicketPc

structure SimpleTicketThread where
  pc : SimpleTicketPc
  page : KernelAutolockAbi SimpleTicketWord

/-- The client's calls and the steps that follow them; the weak
compare-exchange may fail although the values agree. -/
inductive SimpleTicketAction where
  | elsewhere (watchFor watchNeq : UInt32)
  | callLock
  | callTrylock
  | callUnlock
  | run
  | failSpuriously

inductive SimpleTicketEvent where
  | internal
  | trylockLoaded
  | tookTicket
  | lockReturned (ret : Int)
  | trylockReturned (ret : Int)
  | unlocked
  deriving DecidableEq, Repr

namespace SimpleTicket

variable {Tid : Type}

/-- One atomic step of one thread. -/
def step (autolock : Bool) (_ : Tid) (action : SimpleTicketAction) (lock : SimpleTicketLock)
    (l : SimpleTicketThread) : Option (SimpleTicketLock × SimpleTicketThread × SimpleTicketEvent) :=
  match l.pc, action with
  | .outside, .elsewhere watchFor watchNeq =>
      some (lock, { l with page := { l.page with watchFor := watchFor, watchNeq := watchNeq } },
        .internal)
  | .outside, .callLock => some (lock, { l with pc := .fetchAdd }, .internal)
  | .outside, .callTrylock => some (lock, { l with pc := .tryLoadNext }, .internal)
  -- `I_simple_ticket_lock_base_trylock`
  | .tryLoadNext, .run =>
      some (lock, { l with pc := .tryLoadCur lock.nextCount }, .trylockLoaded)
  | .tryLoadCur ticketNum, .run =>
      if ticketNum = lock.curCount then
        some (lock, { l with pc := .tryCompareExchange ticketNum }, .internal)
      else some (lock, { l with pc := .outside }, .trylockReturned iFailure)
  | .tryCompareExchange ticketNum, .run =>
      if lock.nextCount = ticketNum then
        some ({ lock with nextCount := ticketNum + 1 }, { l with pc := .holding },
          .trylockReturned iSuccess)
      else some (lock, { l with pc := .outside }, .trylockReturned iFailure)
  | .tryCompareExchange _, .failSpuriously =>
      some (lock, { l with pc := .outside }, .trylockReturned iFailure)
  -- `I_simple_ticket_lock_base_lock`
  | .fetchAdd, .run =>
      some ({ lock with nextCount := lock.nextCount + 1 },
        { l with pc := .firstLoad lock.nextCount }, .tookTicket)
  | .firstLoad ticketNum, .run =>
      if ticketNum = lock.curCount then
        some (lock, { l with pc := .holding }, .lockReturned iSuccess)
      else
        some (lock,
          { l with pc := if autolock then .setWatchMem ticketNum else .loadCur ticketNum }, .internal)
  | .setWatchMem ticketNum, .run =>
      some (lock, ⟨.setWatchFor ticketNum, l.page.autolockSetKernelWatchMem (some .curCount)⟩,
        .internal)
  | .setWatchFor ticketNum, .run =>
      some (lock, ⟨.setWatchNeq ticketNum, l.page.autolockSetKernelWatchFor ticketNum⟩, .internal)
  | .setWatchNeq ticketNum, .run =>
      some (lock, ⟨.loadCur ticketNum, l.page.autolockSetKernelWatchNeq 0⟩, .internal)
  | .loadCur ticketNum, .run =>
      if lock.curCount - ticketNum = 0 then
        if autolock then some (lock, { l with pc := .disarm ticketNum }, .internal)
        else some (lock, { l with pc := .holding }, .lockReturned iSuccess)
      else some (lock, { l with pc := .loadCur ticketNum }, .internal)
  | .disarm _, .run =>
      some (lock, ⟨.holding, l.page.autolockSetKernelWatchMem none⟩, .lockReturned iSuccess)
  -- `I_simple_ticket_lock_base_unlock`
  | .holding, .callUnlock => some (lock, { l with pc := .unlockLoad }, .internal)
  | .unlockLoad, .run => some (lock, { l with pc := .unlockStore lock.curCount }, .internal)
  | .unlockStore curCount, .run =>
      some ({ lock with curCount := curCount + 1 }, { l with pc := .outside }, .unlocked)
  | _, _ => none

def program (Tid : Type) (autolock : Bool) :
    Program Tid SimpleTicketLock SimpleTicketThread SimpleTicketAction SimpleTicketEvent where
  step := step autolock

/-- After `I_simple_ticket_lock_base_init`, every thread outside and disarmed. -/
def init (s : Machine Tid SimpleTicketLock SimpleTicketThread) : Prop :=
  s.shared = ⟨0, 0⟩ ∧ forall t, (s.thread t).pc = .outside ∧ (s.thread t).page.watchMem = none

/-- The initial machine whose pages are fresh. -/
def fresh (Tid : Type) : Machine Tid SimpleTicketLock SimpleTicketThread where
  shared := ⟨0, 0⟩
  thread := fun _ => ⟨.outside, ⟨none, 0, 0⟩⟩

theorem fresh_init : init (fresh Tid) :=
  ⟨rfl, fun _ => ⟨rfl, rfl⟩⟩

abbrev system [DecidableEq Tid] (autolock : Bool) :=
  (program Tid autolock).system init

/-- What the first come, first served specification sees of a step. -/
def observe : Tid × SimpleTicketEvent -> List (LockMove Tid)
  | (t, .tookTicket) => [.arrive t]
  | (t, .lockReturned _) => [.acquire t]
  | (t, .trylockReturned ret) => if ret = iSuccess then [.arrive t, .acquire t] else []
  | (t, .unlocked) => [.release t]
  | _ => []

/-! ## What the labels of a run say -/

/-- The step took a ticket from `next_count`, in `lock` or in a successful `trylock`. -/
def takesTicket : SimpleTicketEvent -> Bool
  | .tookTicket => true
  | .trylockReturned ret => ret = iSuccess
  | _ => false

/-- The step granted the lock to its thread. -/
def grantsLock : SimpleTicketEvent -> Bool
  | .lockReturned _ => true
  | .trylockReturned ret => ret = iSuccess
  | _ => false

/-- The owners of the tickets, in the order in which they were taken. -/
def tickets (trace : List (Tid × SimpleTicketEvent)) : List Tid :=
  trace.filterMap fun label => if takesTicket label.2 then some label.1 else none

/-- The threads in the order in which the lock was granted to them. -/
def acquisitions (trace : List (Tid × SimpleTicketEvent)) : List Tid :=
  trace.filterMap fun label => if grantsLock label.2 then some label.1 else none

/-- How many labels satisfy `counted` since `t` last read `next_count` in `trylock`. -/
def countSinceLoad [DecidableEq Tid] (counted : SimpleTicketEvent -> Bool) (t : Tid)
    (trace : List (Tid × SimpleTicketEvent)) : Nat :=
  trace.foldl (fun n label =>
    if label = (t, .trylockLoaded) then 0 else if counted label.2 then n + 1 else n) 0

/-- The threads that have a ticket. -/
def outstanding (s : Machine Tid SimpleTicketLock SimpleTicketThread) : Set Tid :=
  { t | (s.thread t).pc.hasTicket = true }

/-- Fewer than `2 ^ 32` tickets are outstanding, and a `trylock` that succeeds
has seen fewer than `2 ^ 32` counted steps since it read `next_count`. -/
def withinPeriod [DecidableEq Tid] (counted : SimpleTicketEvent -> Bool) :
    TransitionSystem.Guard (Machine Tid SimpleTicketLock SimpleTicketThread)
      (Tid × SimpleTicketEvent) :=
  fun trace _ label s' =>
    (outstanding s').encard < 2 ^ 32 ∧
      (label.2 = .trylockReturned iSuccess -> countSinceLoad counted label.1 trace < 2 ^ 32)

end SimpleTicket

end UserLocks
end Autolock
