import Autolock.UserLocks.Cptltkt

namespace Autolock
namespace UserLocks

open Concurrency

/-!
# The steps of the cohort lock, by what they do to the lock

The thirty program points are places of a simpler machine.  The pages of the
threads, the pauses of the waiting loops and the batch counts have no
influence on who may enter; the steps that touch only these are silent.
-/

namespace Cptltkt

variable {Tid : Type} {N : Nat}

/-- Where a thread is, as far as the two levels of the lock are concerned. -/
inductive Place (N : Nat) where
  | apart
  | waiting (psl : Fin N) (reqNum : UInt32)
  | first (psl : Fin N)
  | offered (psl : Fin N)
  | interWaiting (psl : Fin N) (reqNum : UInt32)
  | entering (psl : Fin N) (reqNum : UInt32)
  | registering (psl : Fin N) (reqNum : UInt32)
  | entered (psl : Fin N)
  | holding
  | unlocking (psl : Fin N)
  | deciding (psl : Fin N) (nextGrant : UInt32)
  | passing (psl : Fin N) (nextGrant : UInt32)
  | releasing (psl : Fin N) (nextGrant reqNum : UInt32)
  | grantLeft (psl : Fin N) (nextGrant : UInt32)
  | grantsLeft (reqNum : UInt32)

def place : CptltktPc N -> Place N
  | .outside | .fetchAddRequests _ => .apart
  | .setWatchFor psl reqNum | .setWatchNeq psl reqNum | .setWatchMem psl reqNum
  | .pausing psl reqNum _ | .yielding psl reqNum => .waiting psl reqNum
  | .loadSocketGrant psl | .fetchAddRequest psl => .first psl
  | .clearSocketGrant psl => .offered psl
  | .disarm psl => .entered psl
  | .setInterWatchFor psl reqNum | .setInterWatchNeq psl reqNum | .setInterWatchMem psl reqNum
  | .interYielding psl reqNum => .interWaiting psl reqNum
  | .interDisarm psl reqNum | .storeCurPsl psl reqNum => .entering psl reqNum
  | .storeOwnerReqNum psl reqNum => .registering psl reqNum
  | .holding | .loadCurPsl => .holding
  | .loadGrant psl => .unlocking psl
  | .loadRequests psl nextGrant | .testBatchCount psl nextGrant | .loadBatchCount psl nextGrant
  | .storeBatchCount psl nextGrant _ | .setSocketGrant psl nextGrant
  | .resetBatchCount psl nextGrant | .loadOwnerReqNum psl nextGrant => .deciding psl nextGrant
  | .passGrant psl nextGrant => .passing psl nextGrant
  | .releaseBoth psl nextGrant reqNum => .releasing psl nextGrant reqNum
  | .storeGrant psl nextGrant => .grantLeft psl nextGrant
  | .storeGrants reqNum => .grantsLeft reqNum

/-- The socket on whose inner lock a thread at this place has a ticket. -/
def Place.socket (curPsl : Option (Fin N)) : Place N -> Option (Fin N)
  | .apart | .grantsLeft _ => none
  | .holding => curPsl
  | .waiting psl _ | .first psl | .offered psl | .interWaiting psl _ | .entering psl _
  | .registering psl _ | .entered psl | .unlocking psl | .deciding psl _ | .passing psl _
  | .releasing psl _ _ | .grantLeft psl _ => some psl

theorem socket_place (curPsl : Option (Fin N)) (pc : CptltktPc N) :
    (place pc).socket curPsl = pc.socket curPsl := by
  cases pc <;> rfl

/-- The kinds of step, with what each does to the lock and to the place of its thread. -/
inductive StepEffect [NeZero N] (lock : CptltktLock N) :
    CptltktLock N -> Place N -> Place N -> CptltktEvent -> Prop
  | silent (there : Place N) (batchCount : Fin N -> UInt32) :
      StepEffect lock { lock with batchCount := batchCount } there there .internal
  | takesTicket (psl : Fin N) :
      StepEffect lock
        { lock with requests := Function.update lock.requests psl (lock.requests psl + 1) }
        .apart (.waiting psl (lock.requests psl)) .internal
  | seesGrant {psl : Fin N} {reqNum : UInt32} (granted : lock.grant psl = reqNum) :
      StepEffect lock lock (.waiting psl reqNum) (.first psl) .internal
  | seesSocketGrant {psl : Fin N} (offered : lock.socketGrant psl ≠ cptltktDoesntHaveSocket) :
      StepEffect lock lock (.first psl) (.offered psl) .internal
  | takesSocketGrant (psl : Fin N) :
      StepEffect lock
        { lock with socketGrant := Function.update lock.socketGrant psl cptltktDoesntHaveSocket }
        (.offered psl) (.entered psl) .internal
  | takesSocketGrantAndReturns (psl : Fin N) :
      StepEffect lock
        { lock with socketGrant := Function.update lock.socketGrant psl cptltktDoesntHaveSocket }
        (.offered psl) .holding (.lockReturned iSuccess)
  | returns (psl : Fin N) :
      StepEffect lock lock (.entered psl) .holding (.lockReturned iSuccess)
  | takesInterTicket (psl : Fin N) :
      StepEffect lock { lock with request := lock.request + 1 } (.first psl)
        (.interWaiting psl lock.request) .internal
  | seesGrants {psl : Fin N} {reqNum : UInt32} (granted : lock.grants (reqIdx reqNum) = reqNum) :
      StepEffect lock lock (.interWaiting psl reqNum) (.entering psl reqNum) .internal
  | storesCurPsl (psl : Fin N) (reqNum : UInt32) :
      StepEffect lock { lock with curPsl := some psl } (.entering psl reqNum)
        (.registering psl reqNum) .internal
  | storesOwnerReqNum (psl : Fin N) (reqNum : UInt32) :
      StepEffect lock { lock with ownerReqNum := Function.update lock.ownerReqNum psl reqNum }
        (.registering psl reqNum) .holding (.lockReturned iSuccess)
  | loadsCurPsl {psl : Fin N} (current : lock.curPsl = some psl) :
      StepEffect lock lock .holding (.unlocking psl) .internal
  | loadsGrant (psl : Fin N) :
      StepEffect lock lock (.unlocking psl) (.deciding psl (lock.grant psl + 1)) .internal
  | setsSocketGrant (psl : Fin N) (nextGrant : UInt32) :
      StepEffect lock
        { lock with socketGrant := Function.update lock.socketGrant psl cptltktHasSocket }
        (.deciding psl nextGrant) (.passing psl nextGrant) .internal
  | passes (psl : Fin N) (nextGrant : UInt32) :
      StepEffect lock { lock with grant := Function.update lock.grant psl nextGrant }
        (.passing psl nextGrant) .apart (.passed iSuccess)
  | loadsOwnerReqNum (psl : Fin N) (nextGrant : UInt32) :
      StepEffect lock lock (.deciding psl nextGrant)
        (.releasing psl nextGrant (lock.ownerReqNum psl + 1)) .internal
  | storesGrantsFirst (psl : Fin N) (nextGrant reqNum : UInt32) :
      StepEffect lock { lock with grants := Function.update lock.grants (reqIdx reqNum) reqNum }
        (.releasing psl nextGrant reqNum) (.grantLeft psl nextGrant) .letGo
  | storesGrantFirst (psl : Fin N) (nextGrant reqNum : UInt32) :
      StepEffect lock { lock with grant := Function.update lock.grant psl nextGrant }
        (.releasing psl nextGrant reqNum) (.grantsLeft reqNum) .letGo
  | storesGrantLast (psl : Fin N) (nextGrant : UInt32) :
      StepEffect lock { lock with grant := Function.update lock.grant psl nextGrant }
        (.grantLeft psl nextGrant) .apart (.unlockReturned iSuccess)
  | storesGrantsLast (reqNum : UInt32) :
      StepEffect lock { lock with grants := Function.update lock.grants (reqIdx reqNum) reqNum }
        (.grantsLeft reqNum) .apart (.unlockReturned iSuccess)

theorem step_effect [NeZero N] {autolock : Bool} {t : Tid} {action : CptltktAction N}
    {lock lock' : CptltktLock N} {l l' : CptltktThread N} {event : CptltktEvent}
    (stepped : step autolock t action lock l = some (lock', l', event)) :
    StepEffect lock lock' (place l.pc) (place l'.pc) event := by
  rcases l with ⟨pc, page⟩
  cases pc <;> cases action <;> simp only [step, reduceCtorEq] at stepped
  case fetchAddRequests.run psl =>
    cases stepped
    cases autolock <;> exact .takesTicket psl
  case pausing.run psl reqNum tmpWaitIters =>
    split at stepped
    · next granted =>
        cases stepped
        exact .seesGrant granted
    · cases stepped
      cases lockWaitNext tmpWaitIters <;> exact .silent _ lock.batchCount
  case yielding.run psl reqNum =>
    split at stepped
    · next granted =>
        cases stepped
        exact .seesGrant granted
    · cases stepped
      exact .silent _ lock.batchCount
  case loadSocketGrant.run psl =>
    split at stepped
    · next offered =>
        cases stepped
        exact .seesSocketGrant offered
    · cases stepped
      exact .silent _ lock.batchCount
  case clearSocketGrant.run psl =>
    split at stepped <;> cases stepped
    · exact .takesSocketGrant psl
    · exact .takesSocketGrantAndReturns psl
  case fetchAddRequest.run psl =>
    cases stepped
    cases autolock <;> exact .takesInterTicket psl
  case interYielding.run psl reqNum =>
    split at stepped
    · next granted =>
        cases stepped
        cases autolock <;> exact .seesGrants granted
    · cases stepped
      exact .silent _ lock.batchCount
  case loadCurPsl.run =>
    split at stepped
    · next psl current =>
        cases stepped
        exact .loadsCurPsl current
    · cases stepped
  case loadRequests.run psl nextGrant =>
    split at stepped <;> cases stepped <;> exact .silent _ lock.batchCount
  case testBatchCount.run psl nextGrant =>
    split at stepped <;> cases stepped <;> exact .silent _ lock.batchCount
  all_goals cases stepped
  case disarm.run psl => exact .returns psl
  case storeCurPsl.run psl reqNum => exact .storesCurPsl psl reqNum
  case storeOwnerReqNum.run psl reqNum => exact .storesOwnerReqNum psl reqNum
  case loadGrant.run psl => exact .loadsGrant psl
  case setSocketGrant.run psl nextGrant => exact .setsSocketGrant psl nextGrant
  case passGrant.run psl nextGrant => exact .passes psl nextGrant
  case loadOwnerReqNum.run psl nextGrant => exact .loadsOwnerReqNum psl nextGrant
  case releaseBoth.run psl nextGrant reqNum => exact .storesGrantsFirst psl nextGrant reqNum
  case releaseBoth.runReordered psl nextGrant reqNum => exact .storesGrantFirst psl nextGrant reqNum
  case storeGrant.run psl nextGrant => exact .storesGrantLast psl nextGrant
  case storeGrants.run reqNum => exact .storesGrantsLast reqNum
  case storeBatchCount.run psl nextGrant batchCount => exact .silent _ _
  case resetBatchCount.run psl nextGrant => exact .silent _ _
  all_goals exact .silent _ lock.batchCount

end Cptltkt

end UserLocks
end Autolock
