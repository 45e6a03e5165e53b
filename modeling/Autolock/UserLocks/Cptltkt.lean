import Autolock.Concurrency.LockSpec
import Autolock.Concurrency.Threads
import Autolock.Concurrency.WrappingCounter
import Autolock.UserLocks.AutolockPage
import Autolock.UserLocks.LockWait

namespace Autolock
namespace UserLocks

open Concurrency

/-!
# The cohort lock `I_cptltkt_lock_base`

A ticket lock for each socket, and between the sockets a second ticket lock
whose waiters watch a circular array of grants, one slot for each socket.  The
thread that leaves the lock may keep the outer lock for its socket: it sets
`socket_grant` and hands on the inner lock only, at most a hundred times in a
row.  Otherwise it releases both locks, in either order.

`trylock` is `assert(0)` in the source and therefore not modelled.  The flag
`autolock` is `I_WITH_AUTOLOCK`, `N` is `NUM_NUMA_NODES`.
-/

def cptltktSocketBatchCount : UInt32 := 100
def cptltktPauseIters : UInt32 := 512
def cptltktHasSocket : UInt32 := 1
def cptltktDoesntHaveSocket : UInt32 := 0

/-- `I_cptltkt_lock_base_t`.  The fields of `per_socket_lock[s]` are functions
of `s`; `request` and `grants` belong to `inter_socket_lock`. -/
structure CptltktLock (N : Nat) where
  grant : Fin N -> UInt32
  requests : Fin N -> UInt32
  socketGrant : Fin N -> UInt32
  batchCount : Fin N -> UInt32
  ownerReqNum : Fin N -> UInt32
  request : UInt32
  grants : Fin N -> UInt32
  curPsl : Option (Fin N)

/-- The words that a thread may watch. -/
inductive CptltktWord (N : Nat) where
  | grant (psl : Fin N)
  | grants (reqIdx : Fin N)
  deriving DecidableEq, Repr

/-- The next atomic step of a thread, with its local variables. -/
inductive CptltktPc (N : Nat) where
  | outside
  | fetchAddRequests (psl : Fin N)
  | setWatchFor (psl : Fin N) (reqNum : UInt32)
  | setWatchNeq (psl : Fin N) (reqNum : UInt32)
  | setWatchMem (psl : Fin N) (reqNum : UInt32)
  | pausing (psl : Fin N) (reqNum tmpWaitIters : UInt32)
  | yielding (psl : Fin N) (reqNum : UInt32)
  | loadSocketGrant (psl : Fin N)
  | clearSocketGrant (psl : Fin N)
  | disarm (psl : Fin N)
  | fetchAddRequest (psl : Fin N)
  | setInterWatchFor (psl : Fin N) (reqNum : UInt32)
  | setInterWatchNeq (psl : Fin N) (reqNum : UInt32)
  | setInterWatchMem (psl : Fin N) (reqNum : UInt32)
  | interYielding (psl : Fin N) (reqNum : UInt32)
  | interDisarm (psl : Fin N) (reqNum : UInt32)
  | storeCurPsl (psl : Fin N) (reqNum : UInt32)
  | storeOwnerReqNum (psl : Fin N) (reqNum : UInt32)
  | holding
  | loadCurPsl
  | loadGrant (psl : Fin N)
  | loadRequests (psl : Fin N) (nextGrant : UInt32)
  | testBatchCount (psl : Fin N) (nextGrant : UInt32)
  | loadBatchCount (psl : Fin N) (nextGrant : UInt32)
  | storeBatchCount (psl : Fin N) (nextGrant batchCount : UInt32)
  | setSocketGrant (psl : Fin N) (nextGrant : UInt32)
  | passGrant (psl : Fin N) (nextGrant : UInt32)
  | resetBatchCount (psl : Fin N) (nextGrant : UInt32)
  | loadOwnerReqNum (psl : Fin N) (nextGrant : UInt32)
  | releaseBoth (psl : Fin N) (nextGrant reqNum : UInt32)
  | storeGrant (psl : Fin N) (nextGrant : UInt32)
  | storeGrants (reqNum : UInt32)
  deriving DecidableEq, Repr

namespace CptltktPc

variable {N : Nat}

/-- Between the return of `lock` and the first releasing store of `unlock`. -/
def holdsLock : CptltktPc N -> Bool
  | .holding | .loadCurPsl | .loadGrant _ | .loadRequests _ _ | .testBatchCount _ _
  | .loadBatchCount _ _ | .storeBatchCount _ _ _ | .setSocketGrant _ _ | .passGrant _ _
  | .resetBatchCount _ _ | .loadOwnerReqNum _ _ | .releaseBoth _ _ _ => true
  | _ => false

/-- The socket on whose inner lock the thread has a ticket.  Between the
return of `lock` and the first load of `unlock` only `cur_psl` knows it. -/
def socket (curPsl : Option (Fin N)) : CptltktPc N -> Option (Fin N)
  | .outside | .fetchAddRequests _ | .storeGrants _ => none
  | .holding | .loadCurPsl => curPsl
  | .setWatchFor psl _ | .setWatchNeq psl _ | .setWatchMem psl _ | .pausing psl _ _
  | .yielding psl _ | .loadSocketGrant psl | .clearSocketGrant psl | .disarm psl
  | .fetchAddRequest psl | .setInterWatchFor psl _ | .setInterWatchNeq psl _
  | .setInterWatchMem psl _ | .interYielding psl _ | .interDisarm psl _ | .storeCurPsl psl _
  | .storeOwnerReqNum psl _ | .loadGrant psl | .loadRequests psl _ | .testBatchCount psl _
  | .loadBatchCount psl _ | .storeBatchCount psl _ _ | .setSocketGrant psl _ | .passGrant psl _
  | .resetBatchCount psl _ | .loadOwnerReqNum psl _ | .releaseBoth psl _ _
  | .storeGrant psl _ => some psl

end CptltktPc

structure CptltktThread (N : Nat) where
  pc : CptltktPc N
  page : KernelAutolockAbi (CptltktWord N)

/-- The client's calls and the steps that follow them.  `callLock` carries what
`get_current_socket` returns; `runReordered` takes the second of the two
releasing stores first. -/
inductive CptltktAction (N : Nat) where
  | elsewhere (watchFor watchNeq : UInt32)
  | callLock (currentSocket : Fin N)
  | callUnlock
  | run
  | runReordered

inductive CptltktEvent where
  | internal
  | lockReturned (ret : Int)
  /-- The inner lock was handed on together with the outer one; `unlock` returned. -/
  | passed (ret : Int)
  /-- The first of the two releasing stores. -/
  | letGo
  | unlockReturned (ret : Int)
  deriving DecidableEq, Repr

namespace Cptltkt

variable {Tid : Type} {N : Nat} [NeZero N]

/-- `req_num % I_CPTLTKT_SOCKET_NUM_SPINNERS` -/
def reqIdx (reqNum : UInt32) : Fin N := Fin.ofNat N reqNum.toNat

/-- The slot of an unbounded ticket number. -/
def slotOf (N : Nat) [NeZero N] (j : Nat) : Fin N := reqIdx (wrap j)

theorem slotOf_eq_iff {i j : Nat} :
    slotOf N i = slotOf N j <-> i % 2 ^ 32 % N = j % 2 ^ 32 % N :=
  Fin.ext_iff

/-- The label `I_cptltkt_has_global_lock`. -/
def hasGlobalLock (autolock : Bool) (psl : Fin N) (reqNum : UInt32) : CptltktPc N :=
  if autolock then .interDisarm psl reqNum else .storeCurPsl psl reqNum

/-- One atomic step of one thread. -/
def step (autolock : Bool) (_ : Tid) (action : CptltktAction N) (lock : CptltktLock N)
    (l : CptltktThread N) : Option (CptltktLock N × CptltktThread N × CptltktEvent) :=
  match l.pc, action with
  | .outside, .elsewhere watchFor watchNeq =>
      some (lock, { l with page := { l.page with watchFor := watchFor, watchNeq := watchNeq } },
        .internal)
  -- `I_cptltkt_lock_base_lock`
  | .outside, .callLock currentSocket =>
      some (lock, { l with pc := .fetchAddRequests currentSocket }, .internal)
  | .fetchAddRequests psl, .run =>
      let reqNum := lock.requests psl
      some ({ lock with requests := Function.update lock.requests psl (reqNum + 1) },
        { l with
          pc :=
            if autolock then .setWatchFor psl reqNum
            else .pausing psl reqNum (lockWaitStart cptltktPauseIters) },
        .internal)
  | .setWatchFor psl reqNum, .run =>
      some (lock, ⟨.setWatchNeq psl reqNum, l.page.autolockSetKernelWatchFor reqNum⟩, .internal)
  | .setWatchNeq psl reqNum, .run =>
      some (lock, ⟨.setWatchMem psl reqNum, l.page.autolockSetKernelWatchNeq 0⟩, .internal)
  | .setWatchMem psl reqNum, .run =>
      some (lock, ⟨.pausing psl reqNum (lockWaitStart cptltktPauseIters),
        l.page.autolockSetKernelWatchMem (some (.grant psl))⟩, .internal)
  | .pausing psl reqNum tmpWaitIters, .run =>
      if lock.grant psl = reqNum then
        some (lock, { l with pc := .loadSocketGrant psl }, .internal)
      else
        some (lock,
          { l with
            pc :=
              match lockWaitNext tmpWaitIters with
              | some tmpWaitIters' => .pausing psl reqNum tmpWaitIters'
              | none => .yielding psl reqNum },
          .internal)
  | .yielding psl reqNum, .run =>
      if lock.grant psl = reqNum then
        some (lock, { l with pc := .loadSocketGrant psl }, .internal)
      else some (lock, l, .internal)
  | .loadSocketGrant psl, .run =>
      if lock.socketGrant psl ≠ cptltktDoesntHaveSocket then
        some (lock, { l with pc := .clearSocketGrant psl }, .internal)
      else some (lock, { l with pc := .fetchAddRequest psl }, .internal)
  | .clearSocketGrant psl, .run =>
      let lock' := { lock with
        socketGrant := Function.update lock.socketGrant psl cptltktDoesntHaveSocket }
      if autolock then some (lock', { l with pc := .disarm psl }, .internal)
      else some (lock', { l with pc := .holding }, .lockReturned iSuccess)
  | .disarm _, .run =>
      some (lock, ⟨.holding, l.page.autolockSetKernelWatchMem none⟩, .lockReturned iSuccess)
  | .fetchAddRequest psl, .run =>
      let reqNum := lock.request
      some ({ lock with request := reqNum + 1 },
        { l with
          pc := if autolock then .setInterWatchFor psl reqNum else .interYielding psl reqNum },
        .internal)
  | .setInterWatchFor psl reqNum, .run =>
      some (lock, ⟨.setInterWatchNeq psl reqNum, l.page.autolockSetKernelWatchFor reqNum⟩,
        .internal)
  | .setInterWatchNeq psl reqNum, .run =>
      some (lock, ⟨.setInterWatchMem psl reqNum, l.page.autolockSetKernelWatchNeq 0⟩, .internal)
  | .setInterWatchMem psl reqNum, .run =>
      some (lock, ⟨.interYielding psl reqNum,
        l.page.autolockSetKernelWatchMem (some (.grants (reqIdx reqNum)))⟩, .internal)
  | .interYielding psl reqNum, .run =>
      if lock.grants (reqIdx reqNum) = reqNum then
        some (lock, { l with pc := hasGlobalLock autolock psl reqNum }, .internal)
      else some (lock, l, .internal)
  | .interDisarm psl reqNum, .run =>
      some (lock, ⟨.storeCurPsl psl reqNum, l.page.autolockSetKernelWatchMem none⟩, .internal)
  | .storeCurPsl psl reqNum, .run =>
      some ({ lock with curPsl := some psl }, { l with pc := .storeOwnerReqNum psl reqNum },
        .internal)
  | .storeOwnerReqNum psl reqNum, .run =>
      some ({ lock with ownerReqNum := Function.update lock.ownerReqNum psl reqNum },
        { l with pc := .holding }, .lockReturned iSuccess)
  -- `I_cptltkt_lock_base_unlock`
  | .holding, .callUnlock => some (lock, { l with pc := .loadCurPsl }, .internal)
  | .loadCurPsl, .run =>
      match lock.curPsl with
      | some psl => some (lock, { l with pc := .loadGrant psl }, .internal)
      | none => none
  | .loadGrant psl, .run =>
      some (lock, { l with pc := .loadRequests psl (lock.grant psl + 1) }, .internal)
  | .loadRequests psl nextGrant, .run =>
      if lock.requests psl ≠ nextGrant then
        some (lock, { l with pc := .testBatchCount psl nextGrant }, .internal)
      else some (lock, { l with pc := .loadOwnerReqNum psl nextGrant }, .internal)
  | .testBatchCount psl nextGrant, .run =>
      if lock.batchCount psl ≠ 0 then
        some (lock, { l with pc := .loadBatchCount psl nextGrant }, .internal)
      else some (lock, { l with pc := .resetBatchCount psl nextGrant }, .internal)
  | .loadBatchCount psl nextGrant, .run =>
      some (lock, { l with pc := .storeBatchCount psl nextGrant (lock.batchCount psl - 1) },
        .internal)
  | .storeBatchCount psl nextGrant batchCount, .run =>
      some ({ lock with batchCount := Function.update lock.batchCount psl batchCount },
        { l with pc := .setSocketGrant psl nextGrant }, .internal)
  | .setSocketGrant psl nextGrant, .run =>
      some ({ lock with socketGrant := Function.update lock.socketGrant psl cptltktHasSocket },
        { l with pc := .passGrant psl nextGrant }, .internal)
  | .passGrant psl nextGrant, .run =>
      some ({ lock with grant := Function.update lock.grant psl nextGrant },
        { l with pc := .outside }, .passed iSuccess)
  | .resetBatchCount psl nextGrant, .run =>
      some ({ lock with
          batchCount := Function.update lock.batchCount psl cptltktSocketBatchCount },
        { l with pc := .loadOwnerReqNum psl nextGrant }, .internal)
  | .loadOwnerReqNum psl nextGrant, .run =>
      some (lock, { l with pc := .releaseBoth psl nextGrant (lock.ownerReqNum psl + 1) },
        .internal)
  | .releaseBoth psl nextGrant reqNum, .run =>
      some ({ lock with grants := Function.update lock.grants (reqIdx reqNum) reqNum },
        { l with pc := .storeGrant psl nextGrant }, .letGo)
  | .releaseBoth psl nextGrant reqNum, .runReordered =>
      some ({ lock with grant := Function.update lock.grant psl nextGrant },
        { l with pc := .storeGrants reqNum }, .letGo)
  | .storeGrant psl nextGrant, .run =>
      some ({ lock with grant := Function.update lock.grant psl nextGrant },
        { l with pc := .outside }, .unlockReturned iSuccess)
  | .storeGrants reqNum, .run =>
      some ({ lock with grants := Function.update lock.grants (reqIdx reqNum) reqNum },
        { l with pc := .outside }, .unlockReturned iSuccess)
  | _, _ => none

def program (Tid : Type) (N : Nat) [NeZero N] (autolock : Bool) :
    Program Tid (CptltktLock N) (CptltktThread N) (CptltktAction N) CptltktEvent where
  step := step autolock

/-- `I_cptltkt_lock_base_init`: all zero. -/
def lockInit (N : Nat) : CptltktLock N where
  grant := fun _ => 0
  requests := fun _ => 0
  socketGrant := fun _ => 0
  batchCount := fun _ => 0
  ownerReqNum := fun _ => 0
  request := 0
  grants := fun _ => 0
  curPsl := none

omit [NeZero N] in
/-- The lock has been initialised and every thread is outside and disarmed. -/
def init (s : Machine Tid (CptltktLock N) (CptltktThread N)) : Prop :=
  s.shared = lockInit N ∧
    forall t, (s.thread t).pc = .outside ∧ (s.thread t).page.watchMem = none

/-- The initial machine whose pages are fresh. -/
def fresh (Tid : Type) (N : Nat) : Machine Tid (CptltktLock N) (CptltktThread N) where
  shared := lockInit N
  thread := fun _ => ⟨.outside, ⟨none, 0, 0⟩⟩

omit [NeZero N] in
theorem fresh_init : init (fresh Tid N) :=
  ⟨rfl, fun _ => ⟨rfl, rfl⟩⟩

abbrev system [DecidableEq Tid] (N : Nat) [NeZero N] (autolock : Bool) :=
  (program Tid N autolock).system init

/-- What the mutual exclusion specification sees of a step. -/
def observe : Tid × CptltktEvent -> List (LockMove Tid)
  | (t, .lockReturned _) => [.acquire t]
  | (t, .passed _) => [.release t]
  | (t, .letGo) => [.release t]
  | _ => []

omit [NeZero N] in
/-- The threads that have a ticket of the inner lock of a socket. -/
def inside (s : Machine Tid (CptltktLock N) (CptltktThread N)) (psl : Fin N) : Set Tid :=
  { t | (s.thread t).pc.socket s.shared.curPsl = some psl }

/-- On no inner lock are `2 ^ 32` tickets outstanding. -/
def roomy : TransitionSystem.Guard (Machine Tid (CptltktLock N) (CptltktThread N))
    (Tid × CptltktEvent) :=
  fun _ _ _ s' => forall psl, (inside s' psl).encard < (2 ^ 32 : Nat)

end Cptltkt

end UserLocks
end Autolock
