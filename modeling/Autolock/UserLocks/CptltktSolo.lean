import Autolock.UserLocks.Cptltkt

namespace Autolock
namespace UserLocks

open Concurrency

/-!
# A thread alone on the cohort lock

When the inner lock of a socket and the outer lock are free, a thread gets
through `lock` and `unlock` without waiting.  Both counters of the socket and
the outer counter then advance by one.
-/

namespace Cptltkt

variable {Tid : Type} {N : Nat} [NeZero N]

section lock

variable (lock : CptltktLock N) (psl : Fin N)

/-- The lock after a thread has taken a ticket of the socket. -/
def ticketTaken : CptltktLock N :=
  { lock with requests := Function.update lock.requests psl (lock.requests psl + 1) }

/-- The lock after the first at its socket has acquired the outer lock too. -/
def entered : CptltktLock N :=
  { lock with
    request := lock.request + 1
    curPsl := some psl
    ownerReqNum := Function.update lock.ownerReqNum psl lock.request }

/-- The lock after a `lock` without waiting. -/
def acquired : CptltktLock N :=
  { lock with
    requests := Function.update lock.requests psl (lock.requests psl + 1)
    request := lock.request + 1
    curPsl := some psl
    ownerReqNum := Function.update lock.ownerReqNum psl lock.request }

/-- The lock after both releasing stores. -/
def released : CptltktLock N :=
  { lock with
    grants := Function.update lock.grants (reqIdx (lock.ownerReqNum psl + 1))
      (lock.ownerReqNum psl + 1)
    grant := Function.update lock.grant psl (lock.grant psl + 1) }

/-- The inner lock of the socket and the outer lock are free. -/
structure Free : Prop where
  grant : lock.grant psl = lock.requests psl
  socketGrant : lock.socketGrant psl = cptltktDoesntHaveSocket
  grants : lock.grants (reqIdx lock.request) = lock.request

end lock

section solo

variable {lock : CptltktLock N} {psl : Fin N} (t : Tid) (page : KernelAutolockAbi (CptltktWord N))

/-- The first two steps of `lock`. -/
theorem solo_ticket :
    (program Tid N false).Solo t lock ⟨.outside, page⟩ [.internal, .internal]
      (ticketTaken lock psl)
      ⟨.pausing psl (lock.requests psl) (lockWaitStart cptltktPauseIters), page⟩ :=
  .cons (.callLock psl) rfl (.cons CptltktAction.run rfl (.refl _ _))

/-- The rest of `lock`, when both locks are free. -/
theorem solo_enter {reqNum : UInt32} (granted : lock.grant psl = reqNum)
    (noFlag : lock.socketGrant psl = cptltktDoesntHaveSocket)
    (grants : lock.grants (reqIdx lock.request) = lock.request) :
    (program Tid N false).Solo t lock
      ⟨.pausing psl reqNum (lockWaitStart cptltktPauseIters), page⟩
      [.internal, .internal, .internal, .internal, .internal, .lockReturned iSuccess]
      (entered lock psl) ⟨.holding, page⟩ := by
  -- The grant is there already, and the socket does not have the outer lock.
  refine .cons CptltktAction.run (if_pos granted) ?_
  refine .cons CptltktAction.run (if_neg (not_not.mpr noFlag)) ?_
  refine .cons CptltktAction.run rfl ?_
  refine .cons CptltktAction.run (if_pos grants) ?_
  refine .cons CptltktAction.run rfl ?_
  refine .cons CptltktAction.run rfl ?_
  exact .refl _ _

/-- `lock` on a free socket does not wait. -/
theorem solo_lock (free : Free lock psl) :
    (program Tid N false).Solo t lock ⟨.outside, page⟩
      [.internal, .internal, .internal, .internal, .internal, .internal, .internal,
        .lockReturned iSuccess]
      (acquired lock psl) ⟨.holding, page⟩ :=
  (solo_ticket t page).append (solo_enter t page free.grant free.socketGrant free.grants)

/-- The first loads of `unlock`. -/
theorem solo_loads (current : lock.curPsl = some psl) :
    (program Tid N false).Solo t lock ⟨.holding, page⟩ [.internal, .internal, .internal]
      lock ⟨.loadRequests psl (lock.grant psl + 1), page⟩ := by
  have loads : (program Tid N false).step t .run lock ⟨.loadCurPsl, page⟩ =
      some (lock, ⟨.loadGrant psl, page⟩, .internal) := by
    simp only [program, step, current]
  exact .cons .callUnlock rfl (.cons CptltktAction.run loads (.cons CptltktAction.run rfl
    (.refl _ _)))

/-- The last steps of an `unlock` that releases both locks. -/
theorem solo_release :
    (program Tid N false).Solo t lock ⟨.loadOwnerReqNum psl (lock.grant psl + 1), page⟩
      [.internal, .letGo, .unlockReturned iSuccess] (released lock psl) ⟨.outside, page⟩ :=
  .cons CptltktAction.run rfl (.cons CptltktAction.run rfl (.cons CptltktAction.run rfl
    (.refl _ _)))

/-- `unlock` with nobody else on the socket releases both locks. -/
theorem solo_unlock (current : lock.curPsl = some psl)
    (nobodyElse : lock.requests psl = lock.grant psl + 1) :
    (program Tid N false).Solo t lock ⟨.holding, page⟩
      [.internal, .internal, .internal, .internal, .internal, .letGo, .unlockReturned iSuccess]
      (released lock psl) ⟨.outside, page⟩ :=
  (solo_loads t page current).append
    (.cons CptltktAction.run (if_neg (not_not.mpr nobodyElse)) (solo_release t page))

end solo

/-! ## Many rounds -/

/-- The lock after `n` rounds of a thread alone on a socket. -/
def afterRounds (psl : Fin N) : Nat -> CptltktLock N
  | 0 => lockInit N
  | n + 1 => released (acquired (afterRounds psl n) psl) psl

/-- What the counters show after `n` rounds. -/
structure Rounds (psl : Fin N) (n : Nat) (lock : CptltktLock N) : Prop where
  requests : lock.requests = Function.update (fun _ => 0) psl (wrap n)
  grant : lock.grant = Function.update (fun _ => 0) psl (wrap n)
  socketGrant : lock.socketGrant = fun _ => cptltktDoesntHaveSocket
  request : lock.request = wrap n
  grants : lock.grants (slotOf N n) = wrap n

theorem rounds_afterRounds (psl : Fin N) (n : Nat) : Rounds psl n (afterRounds psl n) := by
  induction n with
  | zero =>
      exact ⟨(Function.update_eq_self ..).symm, (Function.update_eq_self ..).symm, rfl, rfl, rfl⟩
  | succ n inductionHypothesis =>
      rcases inductionHypothesis with ⟨requests, grant, socketGrant, request, grants⟩
      refine ⟨?_, ?_, socketGrant, ?_, ?_⟩
      · simp [afterRounds, released, acquired, requests]
      · simp [afterRounds, released, acquired, grant]
      · simp [afterRounds, released, acquired, request]
      · simp [afterRounds, released, acquired, request, slotOf]

theorem batchCount_afterRounds (psl : Fin N) (n : Nat) (psl' : Fin N) :
    (afterRounds psl n).batchCount psl' = 0 := by
  induction n with
  | zero => rfl
  | succ n inductionHypothesis => exact inductionHypothesis

theorem Rounds.free {psl : Fin N} {n : Nat} {lock : CptltktLock N} (rounds : Rounds psl n lock) :
    Free lock psl where
  grant := by rw [rounds.grant, rounds.requests]
  socketGrant := by rw [rounds.socketGrant]
  grants := by
    rw [rounds.request]
    exact rounds.grants

/-- A thread alone on the lock gets through any number of rounds. -/
theorem run_rounds [DecidableEq Tid] (t : Tid) (psl : Fin N) (n : Nat) :
    exists trace, (system N false).Run TransitionSystem.unguarded trace
      ⟨afterRounds psl n, (fresh Tid N).thread⟩ := by
  induction n with
  | zero => exact ⟨[], .start fresh_init⟩
  | succ n inductionHypothesis =>
      rcases inductionHypothesis with ⟨trace, run⟩
      have rounds := rounds_afterRounds psl n
      have nobodyElse : (acquired (afterRounds psl n) psl).requests psl =
          (acquired (afterRounds psl n) psl).grant psl + 1 := by
        simp [acquired, rounds.requests, rounds.grant]
      have locks := solo_lock t ⟨none, 0, 0⟩ rounds.free
      have unlocks := solo_unlock t ⟨none, 0, 0⟩ rfl nobodyElse
      exact ⟨_, (locks.append unlocks).run_back rfl run⟩

/-- If one value only is announced in its slot, the slot shows it from then on. -/
theorem grants_afterRounds (psl : Fin N) {r : Nat}
    (alone : forall m, slotOf N m = slotOf N r -> wrap m = wrap r) {n : Nat} (later : r ≤ n) :
    (afterRounds psl n).grants (slotOf N r) = wrap r := by
  induction n with
  | zero =>
      rcases Nat.le_zero.mp later with rfl
      rfl
  | succ n inductionHypothesis =>
      have request := (rounds_afterRounds psl n).request
      have announced : (afterRounds psl (n + 1)).grants =
          Function.update (afterRounds psl n).grants (slotOf N (n + 1)) (wrap (n + 1)) := by
        simp [afterRounds, released, acquired, request, slotOf]
      rw [announced]
      by_cases same : slotOf N (n + 1) = slotOf N r
      · rw [same, Function.update_self, alone _ same]
      · rw [Function.update_of_ne (Ne.symm same)]
        apply inductionHypothesis
        rcases Nat.lt_or_eq_of_le later with before | now
        · exact Nat.le_of_lt_succ before
        · exact absurd (congrArg (slotOf N) now.symm) same

end Cptltkt

end UserLocks
end Autolock
