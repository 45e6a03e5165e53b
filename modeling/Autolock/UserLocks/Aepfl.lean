import Autolock.Concurrency.LockSpec
import Autolock.Concurrency.Population
import Autolock.Concurrency.Threads
import Autolock.Concurrency.WrappingCounter
import Autolock.UserLocks.AutolockPage
import Autolock.UserLocks.LockWait

namespace Autolock
namespace UserLocks

open Concurrency

/-!
# The array-queue lock `I_aepfl_lock_base`

A thread takes a slot of a circular array from `tail` and waits until the
flag of its slot is unlocked.  `unlock` takes the slot back from `head`, locks
its flag again and unlocks the flag of the next slot, in three steps.

`trylock` compares `tail` with a second read of `tail`, although the second
variable is called `cur_head`; it then increments `tail` if it has not changed.

The flag `autolock` is `I_WITH_AUTOLOCK`.  A slot is a number below
`I_AEPFL_MAX_THREADS` and serves as the watchable address of its flag.
-/

namespace AepflFlag

def unlocked : UInt32 := 1
def locked : UInt32 := 0

end AepflFlag

def aepflMaxThreads : Nat := 128
def aepflPauseIters : UInt32 := 128
def aepflPauseBound : UInt32 := 2

abbrev AepflSlot := Fin aepflMaxThreads

instance : NeZero aepflMaxThreads := ⟨by decide⟩

/-- The slot of a ticket. -/
def aepflSlot (ticket : Nat) : AepflSlot := Fin.ofNat aepflMaxThreads ticket

structure AepflLock where
  tail : UInt32
  head : UInt32
  flags : AepflSlot -> UInt32

/-- The next atomic step of a thread, with its local variables. -/
inductive AepflPc where
  | outside
  | tryLoadTail
  | tryLoadHead (curTail : UInt32)
  | tryCompareExchange (curTail : UInt32)
  | fetchAddTail
  | firstLoad (slot : AepflSlot)
  | setWatchMem (slot : AepflSlot)
  | setWatchFor (slot : AepflSlot)
  | setWatchNeq (slot : AepflSlot)
  | loadHead (slot : AepflSlot)
  | nearHead (slot : AepflSlot)
  | pausing (slot : AepflSlot) (tmpWaitIters : UInt32)
  | yielding (slot : AepflSlot)
  | disarm (slot : AepflSlot)
  | holding
  | fetchAddHead
  | storeLocked (slot : AepflSlot)
  | storeUnlocked (slot : AepflSlot)
  deriving DecidableEq, Repr

namespace AepflPc

/-- Between the return of a successful `lock` or `trylock` and the first step of `unlock`. -/
def holdsLock : AepflPc -> Bool
  | .holding | .fetchAddHead => true
  | _ => false

/-- The slot has been taken back from `head`, the next flag is not unlocked yet. -/
def inUnlock : AepflPc -> Bool
  | .storeLocked _ | .storeUnlocked _ => true
  | _ => false

/-- The thread waits for the flag of its slot. -/
def queued : AepflPc -> Bool
  | .firstLoad _ | .setWatchMem _ | .setWatchFor _ | .setWatchNeq _ | .loadHead _ | .nearHead _
  | .pausing _ _ | .yielding _ | .disarm _ => true
  | _ => false

/-- Inside `trylock`. -/
def inTrylock : AepflPc -> Bool
  | .tryLoadTail | .tryLoadHead _ | .tryCompareExchange _ => true
  | _ => false

end AepflPc

structure AepflThread where
  pc : AepflPc
  page : KernelAutolockAbi AepflSlot

/-- The client's calls and the steps that follow them; the weak
compare-exchange may fail although the values agree. -/
inductive AepflAction where
  | elsewhere (watchFor watchNeq : UInt32)
  | callLock
  | callTrylock
  | callUnlock
  | run
  | failSpuriously

inductive AepflEvent where
  | internal
  | tookTicket
  | lockReturned (ret : Int)
  | trylockReturned (ret : Int)
  | tookHead
  | unlockReturned (ret : Int)
  deriving DecidableEq, Repr

namespace Aepfl

variable {Tid : Type}

/-- `I_aepfl_lock_base_fetch_add_slot`: what it returns for the old value of the counter. -/
def fetchAddSlot (slotMem : UInt32) : AepflSlot := aepflSlot slotMem.toNat

/-- `I_aepfl_lock_base_get_next_slot` -/
def getNextSlot (slot : AepflSlot) : AepflSlot := aepflSlot (slot.val + 1)

/-- The label `I_aepfl_has_lock`. -/
def hasLock (autolock : Bool) (lock : AepflLock) (l : AepflThread) (slot : AepflSlot) :
    AepflLock × AepflThread × AepflEvent :=
  if autolock then (lock, { l with pc := .disarm slot }, .internal)
  else (lock, { l with pc := .holding }, .lockReturned iSuccess)

/-- Recheck the flag of the slot and go on as its value says. -/
def recheck (autolock : Bool) (lock : AepflLock) (l : AepflThread) (slot : AepflSlot)
    (whenLocked : AepflPc) : Option (AepflLock × AepflThread × AepflEvent) :=
  if lock.flags slot ≠ AepflFlag.locked then some (hasLock autolock lock l slot)
  else some (lock, { l with pc := whenLocked }, .internal)

/-- One atomic step of one thread. -/
def step (autolock : Bool) (_ : Tid) (action : AepflAction) (lock : AepflLock) (l : AepflThread) :
    Option (AepflLock × AepflThread × AepflEvent) :=
  match l.pc, action with
  | .outside, .elsewhere watchFor watchNeq =>
      some (lock, { l with page := { l.page with watchFor := watchFor, watchNeq := watchNeq } },
        .internal)
  | .outside, .callLock => some (lock, { l with pc := .fetchAddTail }, .internal)
  | .outside, .callTrylock => some (lock, { l with pc := .tryLoadTail }, .internal)
  -- `I_aepfl_lock_base_trylock`; the second load reads `tail` again
  | .tryLoadTail, .run => some (lock, { l with pc := .tryLoadHead lock.tail }, .internal)
  | .tryLoadHead curTail, .run =>
      if curTail = lock.tail then
        some (lock, { l with pc := .tryCompareExchange curTail }, .internal)
      else some (lock, { l with pc := .outside }, .trylockReturned iFailure)
  | .tryCompareExchange curTail, .run =>
      if lock.tail = curTail then
        some ({ lock with tail := curTail + 1 }, { l with pc := .holding },
          .trylockReturned iSuccess)
      else some (lock, { l with pc := .outside }, .trylockReturned iFailure)
  | .tryCompareExchange _, .failSpuriously =>
      some (lock, { l with pc := .outside }, .trylockReturned iFailure)
  -- `I_aepfl_lock_base_lock`
  | .fetchAddTail, .run =>
      some ({ lock with tail := lock.tail + 1 },
        { l with pc := .firstLoad (fetchAddSlot lock.tail) }, .tookTicket)
  | .firstLoad slot, .run =>
      if lock.flags slot = AepflFlag.locked then
        some (lock, { l with pc := if autolock then .setWatchMem slot else .loadHead slot },
          .internal)
      else some (lock, { l with pc := .holding }, .lockReturned iSuccess)
  | .setWatchMem slot, .run =>
      some (lock, ⟨.setWatchFor slot, l.page.autolockSetKernelWatchMem (some slot)⟩, .internal)
  | .setWatchFor slot, .run =>
      some (lock, ⟨.setWatchNeq slot, l.page.autolockSetKernelWatchFor AepflFlag.unlocked⟩,
        .internal)
  | .setWatchNeq slot, .run =>
      some (lock, ⟨.loadHead slot, l.page.autolockSetKernelWatchNeq 0⟩, .internal)
  | .loadHead slot, .run =>
      if UInt32.ofNat slot.val - lock.head ≤ aepflPauseBound then
        some (lock, { l with pc := .nearHead slot }, .internal)
      else
        some (lock, { l with pc := .pausing slot (lockWaitStart aepflPauseIters) }, .internal)
  | .nearHead slot, .run => recheck autolock lock l slot (.nearHead slot)
  | .pausing slot tmpWaitIters, .run =>
      recheck autolock lock l slot
        (match lockWaitNext tmpWaitIters with
          | some tmpWaitIters' => .pausing slot tmpWaitIters'
          | none => .yielding slot)
  | .yielding slot, .run => recheck autolock lock l slot (.yielding slot)
  | .disarm _, .run =>
      some (lock, ⟨.holding, l.page.autolockSetKernelWatchMem none⟩, .lockReturned iSuccess)
  -- `I_aepfl_lock_base_unlock`
  | .holding, .callUnlock => some (lock, { l with pc := .fetchAddHead }, .internal)
  | .fetchAddHead, .run =>
      some ({ lock with head := lock.head + 1 },
        { l with pc := .storeLocked (fetchAddSlot lock.head) }, .tookHead)
  | .storeLocked slot, .run =>
      some ({ lock with flags := Function.update lock.flags slot AepflFlag.locked },
        { l with pc := .storeUnlocked (getNextSlot slot) }, .internal)
  | .storeUnlocked slot, .run =>
      some ({ lock with flags := Function.update lock.flags slot AepflFlag.unlocked },
        { l with pc := .outside }, .unlockReturned iSuccess)
  | _, _ => none

def program (Tid : Type) (autolock : Bool) :
    Program Tid AepflLock AepflThread AepflAction AepflEvent where
  step := step autolock

/-- `I_aepfl_lock_base_init` -/
def lockInit : AepflLock where
  tail := 0
  head := 0
  flags := Function.update (fun _ => AepflFlag.locked) 0 AepflFlag.unlocked

/-- The lock has been initialised and every thread is outside and disarmed. -/
def init (s : Machine Tid AepflLock AepflThread) : Prop :=
  s.shared = lockInit ∧ forall t, (s.thread t).pc = .outside ∧ (s.thread t).page.watchMem = none

/-- The initial machine whose pages are fresh. -/
def fresh (Tid : Type) : Machine Tid AepflLock AepflThread where
  shared := lockInit
  thread := fun _ => ⟨.outside, ⟨none, 0, 0⟩⟩

theorem fresh_init : init (fresh Tid) :=
  ⟨rfl, fun _ => ⟨rfl, rfl⟩⟩

abbrev system [DecidableEq Tid] (autolock : Bool) :=
  (program Tid autolock).system init

/-- What the first come, first served specification sees of a step. -/
def observe : Tid × AepflEvent -> List (LockMove Tid)
  | (t, .tookTicket) => [.arrive t]
  | (t, .lockReturned _) => [.acquire t]
  | (t, .trylockReturned ret) => if ret = iSuccess then [.arrive t, .acquire t] else []
  | (t, .tookHead) => [.release t]
  | _ => []

/-! ## What the labels and states of a run say -/

/-- The step took a ticket from `tail`, in `lock` or in a successful `trylock`. -/
def takesTicket : AepflEvent -> Bool
  | .tookTicket => true
  | .trylockReturned ret => ret = iSuccess
  | _ => false

/-- The step granted the lock to its thread. -/
def grantsLock : AepflEvent -> Bool
  | .lockReturned _ => true
  | .trylockReturned ret => ret = iSuccess
  | _ => false

/-- The owners of the tickets, in the order in which they were taken. -/
def tickets (trace : List (Tid × AepflEvent)) : List Tid :=
  trace.filterMap fun label => if takesTicket label.2 then some label.1 else none

/-- The threads in the order in which the lock was granted to them. -/
def acquisitions (trace : List (Tid × AepflEvent)) : List Tid :=
  trace.filterMap fun label => if grantsLock label.2 then some label.1 else none

/-- The threads between their increment of `tail` and the last store of their `unlock`. -/
def inside (s : Machine Tid AepflLock AepflThread) : Set Tid :=
  { t | (s.thread t).pc.queued = true ∨ (s.thread t).pc.holdsLock = true ∨
    (s.thread t).pc.inUnlock = true }

/-- At most `I_AEPFL_MAX_THREADS` threads are inside. -/
def fits (s : Machine Tid AepflLock AepflThread) : Prop :=
  (inside s).encard ≤ aepflMaxThreads

/-- Two threads always fit. -/
theorem fits_of_two (s : Machine Bool AepflLock AepflThread) : fits s :=
  encard_le_of_card (by decide) (inside s)

end Aepfl

end UserLocks
end Autolock
