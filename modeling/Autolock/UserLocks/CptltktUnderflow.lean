import Autolock.UserLocks.CptltktBatch

namespace Autolock
namespace UserLocks

open Concurrency

/-!
# Two holders of the cohort lock underflow the batch count

Where two threads may hold the cohort lock at once, both can find one hand-off
left in the batch of the socket and both can decrement the count.  This happens
with more than `2 ^ 31` sockets, and also at a single socket when `2 ^ 32`
tickets are outstanding there, so that two waiters have the same ticket.
-/

namespace Cptltkt

variable {Tid : Type} {N : Nat} [NeZero N]

/-! ## What a thread does alone -/

/-- The lock after a local hand-off that has not been accepted yet. -/
def handedOn (lock : CptltktLock N) (psl : Fin N) : CptltktLock N :=
  { lock with
    batchCount := Function.update lock.batchCount psl (lock.batchCount psl - 1)
    socketGrant := Function.update lock.socketGrant psl cptltktHasSocket
    grant := Function.update lock.grant psl (lock.grant psl + 1) }

/-- The lock after the flag of the socket has been accepted. -/
def cleared (lock : CptltktLock N) (psl : Fin N) : CptltktLock N :=
  { lock with socketGrant := Function.update lock.socketGrant psl cptltktDoesntHaveSocket }

section solo

variable {lock : CptltktLock N} {psl : Fin N} (t : Tid) (page : KernelAutolockAbi (CptltktWord N))

/-- `unlock` with a waiter and no hand-off left sets the count anew. -/
theorem solo_unlock_resets (current : lock.curPsl = some psl)
    (waiter : lock.requests psl ≠ lock.grant psl + 1) (nothingLeft : lock.batchCount psl = 0) :
    exists events, (program Tid N false).Solo t lock ⟨.holding, page⟩ events
      (released { lock with
        batchCount := Function.update lock.batchCount psl cptltktSocketBatchCount } psl)
      ⟨.outside, page⟩ :=
  ⟨_, (solo_loads t page current).append
    (.cons CptltktAction.run (if_pos waiter)
      (.cons CptltktAction.run (if_neg (not_not.mpr nothingLeft))
        (.cons CptltktAction.run rfl (solo_release t page))))⟩

/-- `unlock` with a waiter and a hand-off left comes to the decrement. -/
theorem solo_decide (current : lock.curPsl = some psl)
    (waiter : lock.requests psl ≠ lock.grant psl + 1) (somethingLeft : lock.batchCount psl ≠ 0) :
    exists events, (program Tid N false).Solo t lock ⟨.holding, page⟩ events lock
      ⟨.loadBatchCount psl (lock.grant psl + 1), page⟩ :=
  ⟨_, (solo_loads t page current).append
    (.cons CptltktAction.run (if_pos waiter)
      (.cons CptltktAction.run (if_pos somethingLeft) (.refl _ _)))⟩

/-- The decrement. -/
theorem solo_decrement (lock : CptltktLock N) (psl : Fin N) {nextGrant : UInt32} :
    exists events, (program Tid N false).Solo t lock ⟨.loadBatchCount psl nextGrant, page⟩ events
      { lock with batchCount := Function.update lock.batchCount psl (lock.batchCount psl - 1) }
      ⟨.setSocketGrant psl nextGrant, page⟩ :=
  ⟨_, .cons CptltktAction.run rfl (.cons CptltktAction.run rfl (.refl _ _))⟩

/-- `unlock` with a waiter and a hand-off left. -/
theorem solo_handOn (current : lock.curPsl = some psl)
    (waiter : lock.requests psl ≠ lock.grant psl + 1) (somethingLeft : lock.batchCount psl ≠ 0) :
    exists events, (program Tid N false).Solo t lock ⟨.holding, page⟩ events
      (handedOn lock psl) ⟨.outside, page⟩ := by
  rcases solo_decide t page current waiter somethingLeft with ⟨_, decides⟩
  rcases solo_decrement t page lock psl with ⟨_, decrements⟩
  exact ⟨_, (decides.append decrements).append
    (.cons CptltktAction.run rfl (.cons CptltktAction.run rfl (.refl _ _)))⟩

/-- A waiter sees its grant and the flag of its socket. -/
theorem solo_seesFlag {reqNum : UInt32} (granted : lock.grant psl = reqNum)
    (flag : lock.socketGrant psl ≠ cptltktDoesntHaveSocket) :
    exists events, (program Tid N false).Solo t lock
      ⟨.pausing psl reqNum (lockWaitStart cptltktPauseIters), page⟩ events lock
      ⟨.clearSocketGrant psl, page⟩ :=
  ⟨_, .cons CptltktAction.run (if_pos granted)
    (.cons CptltktAction.run (if_pos flag) (.refl _ _))⟩

/-- It takes the flag for its own. -/
theorem solo_clearsFlag (lock : CptltktLock N) (psl : Fin N) :
    exists events, (program Tid N false).Solo t lock ⟨.clearSocketGrant psl, page⟩ events
      (cleared lock psl) ⟨.holding, page⟩ :=
  ⟨_, .cons CptltktAction.run rfl (.refl _ _)⟩

end solo

/-! ## Hand-offs between two threads -/

/-- A thread at a program point, with a fresh page. -/
abbrev standing (pc : CptltktPc N) : CptltktThread N := ⟨pc, ⟨none, 0, 0⟩⟩

/-- The socket has the outer lock, nobody waits, and so many hand-offs are left. -/
structure Occupied (lock : CptltktLock N) (psl : Fin N) (handOffs : Nat) : Prop where
  curPsl : lock.curPsl = some psl
  requests : lock.requests psl = lock.grant psl + 1
  batchCount : lock.batchCount psl = wrap handOffs

section handOffs

variable [DecidableEq Tid] {lock : CptltktLock N} {psl : Fin N}
  {thread : Tid -> CptltktThread N} {trace : List (Tid × CptltktEvent)} {p q : Tid}

omit [NeZero N] in
/-- What a thread did before its last move does not show. -/
theorem update_between (moved moved' moved'' : CptltktThread N) :
    Function.update (Function.update (Function.update thread q moved) p moved') q moved'' =
      Function.update (Function.update thread p moved') q moved'' := by
  funext u
  by_cases second : u = q
  · subst second
    rw [Function.update_self, Function.update_self]
  · by_cases first : u = p
    · subst first
      simp only [Function.update_of_ne second, Function.update_self]
    · simp only [Function.update_of_ne first, Function.update_of_ne second]

/-- Two threads at a free socket set its count: the first finds the second waiting. -/
theorem run_fill (different : p ≠ q) (free : Free lock psl) (unset : lock.batchCount psl = 0)
    (outside : thread p = standing .outside) (outside' : thread q = standing .outside)
    (run : (system N false).Run TransitionSystem.unguarded trace ⟨lock, thread⟩) :
    exists trace lock', (system N false).Run TransitionSystem.unguarded trace
        ⟨lock', Function.update thread q (standing .holding)⟩ ∧
      Occupied lock' psl cptltktSocketBatchCount.toNat := by
  let waited := ticketTaken (acquired lock psl) psl
  have waiter : waited.requests psl ≠ waited.grant psl + 1 := by
    simp [waited, ticketTaken, acquired, free.grant]
  have ticket : (program Tid N false).Solo q (acquired lock psl) (standing .outside) _ waited _ :=
    solo_ticket q ⟨none, 0, 0⟩
  rcases solo_unlock_resets p ⟨none, 0, 0⟩ (show waited.curPsl = some psl from rfl) waiter unset
    with ⟨_, unlocks⟩
  let reset := released { waited with
    batchCount := Function.update waited.batchCount psl cptltktSocketBatchCount } psl
  have granted : reset.grant psl = (acquired lock psl).requests psl := by
    simp [reset, released, waited, ticketTaken, acquired, free.grant]
  have grants : reset.grants (reqIdx reset.request) = reset.request := by
    simp [reset, released, waited, ticketTaken, acquired]
  have enters := solo_enter q ⟨none, 0, 0⟩ granted free.socketGrant grants
  have run₁ := (solo_lock p ⟨none, 0, 0⟩ free).run outside run
  have run₂ := ticket.run (by rwa [Function.update_of_ne different.symm]) run₁
  have run₃ := unlocks.run (by rw [Function.update_of_ne different, Function.update_self]) run₂
  have run₄ := enters.run (by rw [Function.update_of_ne different.symm, Function.update_self]) run₃
  have back : Function.update thread p (standing .outside) = thread :=
    Function.update_eq_self_iff.mpr outside.symm
  rw [update_between, Function.update_idem, back] at run₄
  refine ⟨_, _, run₄, rfl, ?_, ?_⟩
  · simp [entered, reset, released, waited, ticketTaken, acquired, free.grant]
  · exact Function.update_self ..

/-- The thread in the critical section passes the lock to the other one. -/
theorem run_handOn (different : p ≠ q) {handOffs : Nat} (occupied : Occupied lock psl (handOffs + 1))
    (fits : handOffs + 1 < 2 ^ 32) (holds : thread p = standing .holding)
    (outside : thread q = standing .outside)
    (run : (system N false).Run TransitionSystem.unguarded trace ⟨lock, thread⟩) :
    exists trace lock', (system N false).Run TransitionSystem.unguarded trace
        ⟨lock', Function.update (Function.update thread p (standing .outside)) q
          (standing .holding)⟩ ∧
      Occupied lock' psl handOffs := by
  let waited := ticketTaken lock psl
  have waiter : waited.requests psl ≠ waited.grant psl + 1 := by
    simp [waited, ticketTaken, occupied.requests]
  have somethingLeft : waited.batchCount psl ≠ 0 := by
    show lock.batchCount psl ≠ 0
    rw [occupied.batchCount]
    intro zero
    have shown := congrArg UInt32.toNat zero
    rw [wrap_toNat, Nat.mod_eq_of_lt fits] at shown
    cases shown
  have ticket : (program Tid N false).Solo q lock (standing .outside) _ waited _ :=
    solo_ticket q ⟨none, 0, 0⟩
  rcases solo_handOn p ⟨none, 0, 0⟩ (show waited.curPsl = some psl from occupied.curPsl) waiter
    somethingLeft with ⟨_, hands⟩
  have granted : (handedOn waited psl).grant psl = lock.requests psl := by
    simp [handedOn, waited, ticketTaken, occupied.requests]
  have flag : (handedOn waited psl).socketGrant psl ≠ cptltktDoesntHaveSocket := by
    simp [handedOn, cptltktHasSocket, cptltktDoesntHaveSocket]
  rcases solo_seesFlag q ⟨none, 0, 0⟩ granted flag with ⟨_, sees⟩
  rcases solo_clearsFlag q ⟨none, 0, 0⟩ (handedOn waited psl) psl with ⟨_, clears⟩
  have run₁ := ticket.run outside run
  have run₂ := hands.run (by rwa [Function.update_of_ne different]) run₁
  have run₃ := (sees.append clears).run
    (by rw [Function.update_of_ne different.symm, Function.update_self]) run₂
  rw [update_between] at run₃
  refine ⟨_, _, run₃, occupied.curPsl, ?_, ?_⟩
  · simp [cleared, handedOn, waited, ticketTaken, occupied.requests]
  · simp [cleared, handedOn, waited, ticketTaken, occupied.batchCount]

/-- Two threads pass the lock back and forth. -/
theorem run_exchanges (different : p ≠ q) {handOffs : Nat} (n : Nat)
    (fits : handOffs + 2 * n < 2 ^ 32) (occupied : Occupied lock psl (handOffs + 2 * n))
    (holds : thread p = standing .holding) (outside : thread q = standing .outside)
    (run : (system N false).Run TransitionSystem.unguarded trace ⟨lock, thread⟩) :
    exists trace lock', (system N false).Run TransitionSystem.unguarded trace ⟨lock', thread⟩ ∧
      Occupied lock' psl handOffs := by
  induction n generalizing lock trace with
  | zero => exact ⟨trace, lock, run, occupied⟩
  | succ n inductionHypothesis =>
      have count : handOffs + 2 * (n + 1) = handOffs + 2 * n + 1 + 1 := by omega
      rw [count] at occupied
      rcases run_handOn different occupied (by omega) holds outside run with
        ⟨_, _, run₁, occupied₁⟩
      have holds₁ := Function.update_self q (standing .holding)
        (Function.update thread p (standing .outside))
      have outside₁ : Function.update (Function.update thread p (standing .outside)) q
          (standing .holding) p = standing .outside := by
        rw [Function.update_of_ne different, Function.update_self]
      rcases run_handOn different.symm occupied₁ (by omega) holds₁ outside₁ run₁ with
        ⟨_, _, run₂, occupied₂⟩
      have stays : Function.update thread p (standing .holding) = thread :=
        Function.update_eq_self_iff.mpr holds.symm
      have stays' : Function.update thread q (standing .outside) = thread :=
        Function.update_eq_self_iff.mpr outside.symm
      rw [Function.update_idem, update_between, stays', stays] at run₂
      exact inductionHypothesis (by omega) occupied₂ run₂

/-- Two threads in the critical section both find one hand-off left; one of
them takes it, and the other is about to decrement zero. -/
theorem run_underflow (different : p ≠ q) (current : lock.curPsl = some psl)
    (waiter : lock.requests psl ≠ lock.grant psl + 1) (one : lock.batchCount psl = 1)
    (holds : thread p = standing .holding) (holds' : thread q = standing .holding)
    (run : (system N false).Run TransitionSystem.unguarded trace ⟨lock, thread⟩) :
    exists trace s, (system N false).Run TransitionSystem.unguarded trace s ∧
      (exists nextGrant, (s.thread q).pc = .loadBatchCount psl nextGrant) ∧
      s.shared.batchCount psl = 0 := by
  have somethingLeft : lock.batchCount psl ≠ 0 := by
    rw [one]
    decide
  rcases solo_decide q ⟨none, 0, 0⟩ current waiter somethingLeft with ⟨_, decides'⟩
  rcases solo_decide p ⟨none, 0, 0⟩ current waiter somethingLeft with ⟨_, decides⟩
  rcases solo_decrement p ⟨none, 0, 0⟩ lock psl with ⟨_, decrements⟩
  have run₁ := decides'.run holds' run
  have run₂ := (decides.append decrements).run (by rwa [Function.update_of_ne different]) run₁
  refine ⟨_, _, run₂, ⟨lock.grant psl + 1, ?_⟩, ?_⟩
  · simp [Function.update_of_ne different.symm]
  · simp [one]

/-- Two waiters with the same ticket both enter when the lock is passed to
their socket, provided that each sees the flag before the other clears it. -/
theorem run_sameTicket {h : Tid} (first : p ≠ h) (second : q ≠ h) (different : p ≠ q)
    (current : lock.curPsl = some psl) (requests : lock.requests psl = lock.grant psl + 3)
    (two : lock.batchCount psl = 2) (holds : thread h = standing .holding)
    (waits : thread p =
      standing (.pausing psl (lock.grant psl + 1) (lockWaitStart cptltktPauseIters)))
    (waits' : thread q =
      standing (.pausing psl (lock.grant psl + 1) (lockWaitStart cptltktPauseIters)))
    (run : (system N false).Run TransitionSystem.unguarded trace ⟨lock, thread⟩) :
    exists trace s, (system N false).Run TransitionSystem.unguarded trace s ∧
      (exists nextGrant, (s.thread q).pc = .loadBatchCount psl nextGrant) ∧
      s.shared.batchCount psl = 0 := by
  have waiter : lock.requests psl ≠ lock.grant psl + 1 := by
    rw [requests, Ne, UInt32.add_right_inj]
    decide
  have somethingLeft : lock.batchCount psl ≠ 0 := by
    rw [two]
    decide
  have granted : (handedOn lock psl).grant psl = lock.grant psl + 1 := Function.update_self ..
  have flag : (handedOn lock psl).socketGrant psl ≠ cptltktDoesntHaveSocket := by
    simp [handedOn, cptltktHasSocket, cptltktDoesntHaveSocket]
  rcases solo_handOn h ⟨none, 0, 0⟩ current waiter somethingLeft with ⟨_, hands⟩
  rcases solo_seesFlag p ⟨none, 0, 0⟩ granted flag with ⟨_, sees⟩
  rcases solo_seesFlag q ⟨none, 0, 0⟩ granted flag with ⟨_, sees'⟩
  rcases solo_clearsFlag p ⟨none, 0, 0⟩ (handedOn lock psl) psl with ⟨_, clears⟩
  rcases solo_clearsFlag q ⟨none, 0, 0⟩ (cleared (handedOn lock psl) psl) psl with ⟨_, clears'⟩
  have run₁ := hands.run holds run
  have run₂ := sees.run (by rwa [Function.update_of_ne first]) run₁
  have run₃ := sees'.run
    (by rwa [Function.update_of_ne different.symm, Function.update_of_ne second]) run₂
  have run₄ := clears.run (by rw [Function.update_of_ne different, Function.update_self]) run₃
  have run₅ := clears'.run (by rw [Function.update_of_ne different.symm, Function.update_self]) run₄
  let entered' := cleared (cleared (handedOn lock psl) psl) psl
  have current' : entered'.curPsl = some psl := current
  have waiter' : entered'.requests psl ≠ entered'.grant psl + 1 := by
    show lock.requests psl ≠ (handedOn lock psl).grant psl + 1
    rw [requests, granted, UInt32.add_assoc, Ne, UInt32.add_right_inj]
    decide
  have one : entered'.batchCount psl = 1 := by
    simp [entered', cleared, handedOn, two]
  exact run_underflow different current' waiter' one
    (by rw [Function.update_of_ne different, Function.update_self]) (Function.update_self ..) run₅

end handOffs

omit [NeZero N] in
theorem not_boundedHandOff {trace : List (CptltktLabel Tid N)}
    {s : Machine Tid (CptltktLock N) (CptltktThread N)} {psl : Fin N} {t : Tid}
    (decrements : exists nextGrant, (s.thread t).pc = .loadBatchCount psl nextGrant)
    (zero : s.shared.batchCount psl = 0) : ¬BoundedHandOff trace s psl := by
  rcases decrements with ⟨nextGrant, here⟩
  exact fun bounded => bounded.decrements t nextGrant here zero

/-! ## Too many sockets -/

/-- The thread on the first socket that holds the lock goes by `cur_psl` when
it leaves, and takes a hand-off from the batch of the second socket. -/
theorem underflow_manySockets :
    exists (trace : List (CptltktLabel (Fin 3) (2 ^ 31 + 1))) (s : Machine (Fin 3) _ _),
      (recordedSystem (2 ^ 31 + 1) false).Run (Program.onRecords roomy) trace s ∧
        ¬BoundedHandOff trace s 1 := by
  have enough : exists n, n + 1 = 2 ^ 32 + (2 ^ 31 - 1) := ⟨_, rfl⟩
  rcases enough with ⟨n, rounds⟩
  rcases run_rounds (0 : Fin 3) (0 : Fin (2 ^ 31 + 1)) n with ⟨_, run⟩
  have run₀ := (solo_lock (0 : Fin 3) ⟨none, 0, 0⟩ (rounds_afterRounds 0 n).free).run rfl run
  have unset : (acquired (afterRounds (0 : Fin (2 ^ 31 + 1)) n) 0).batchCount 1 = 0 :=
    batchCount_afterRounds 0 n 1
  rcases run_fill (show (1 : Fin 3) ≠ 2 by decide) (free_acquired_manySockets rounds) unset
    rfl rfl run₀ with ⟨_, lock₁, run₁, filled⟩
  have occupied₁ : Occupied lock₁ 1 (2 + 2 * 49) := filled
  rcases run_exchanges (show (2 : Fin 3) ≠ 1 by decide) 49 (by decide) occupied₁ rfl rfl run₁ with
    ⟨_, lock₂, run₂, occupied₂⟩
  rcases run_handOn (show (2 : Fin 3) ≠ 1 by decide) occupied₂ (by decide) rfl rfl run₂ with
    ⟨_, lock₃, run₃, occupied₃⟩
  have ticket : (program (Fin 3) (2 ^ 31 + 1) false).Solo 2 lock₃ (standing .outside) _
      (ticketTaken lock₃ 1) _ := solo_ticket 2 ⟨none, 0, 0⟩
  have waiter : (ticketTaken lock₃ 1).requests 1 ≠ (ticketTaken lock₃ 1).grant 1 + 1 := by
    simp [ticketTaken, occupied₃.requests]
  have current : (ticketTaken lock₃ 1).curPsl = some 1 := occupied₃.curPsl
  rcases run_underflow (show (0 : Fin 3) ≠ 1 by decide) current waiter occupied₃.batchCount
    rfl rfl (ticket.run rfl run₃) with ⟨_, s, run₄, decrements, zero⟩
  rcases Program.run_recorded run₄ with ⟨records, recorded⟩
  exact ⟨records, s, recorded.weaken fun _ _ _ s' _ => roomy_of_few (by decide) s',
    not_boundedHandOff decrements zero⟩

/-! ## Too many tickets -/

/-- The lock after so many more threads have taken a ticket of the socket. -/
def crowdedLock (lock : CptltktLock N) (psl : Fin N) (m : Nat) : CptltktLock N :=
  { lock with requests := Function.update lock.requests psl (lock.requests psl + wrap m) }

/-- The threads `2` to `m + 1` wait at the socket, with one ticket after the other. -/
def crowdedThread (lock : CptltktLock N) (psl : Fin N) (thread : Nat -> CptltktThread N)
    (m t : Nat) : CptltktThread N :=
  if 2 ≤ t ∧ t < m + 2 then
    standing (.pausing psl (lock.requests psl + wrap (t - 2)) (lockWaitStart cptltktPauseIters))
  else thread t

theorem run_crowded {lock : CptltktLock N} (psl : Fin N) {thread : Nat -> CptltktThread N}
    (outside : forall t, 2 ≤ t -> thread t = standing .outside) {trace : List (Nat × CptltktEvent)}
    (run : (system N false).Run TransitionSystem.unguarded trace ⟨lock, thread⟩) (m : Nat) :
    exists trace, (system N false).Run TransitionSystem.unguarded trace
      ⟨crowdedLock lock psl m, crowdedThread lock psl thread m⟩ := by
  induction m with
  | zero =>
      have nobody : crowdedThread lock psl thread 0 = thread := by
        funext t
        exact if_neg (by omega)
      have nothing : crowdedLock lock psl 0 = lock := by simp [crowdedLock]
      rw [nobody, nothing]
      exact ⟨trace, run⟩
  | succ m inductionHypothesis =>
      rcases inductionHypothesis with ⟨trace, run⟩
      have next : crowdedThread lock psl thread m (m + 2) = standing .outside := by
        rw [crowdedThread, if_neg (by omega), outside (m + 2) (by omega)]
      have ticket : (program Nat N false).Solo (m + 2) (crowdedLock lock psl m)
          (standing .outside) _ (ticketTaken (crowdedLock lock psl m) psl) _ :=
        solo_ticket (m + 2) ⟨none, 0, 0⟩
      have oneMore : ticketTaken (crowdedLock lock psl m) psl = crowdedLock lock psl (m + 1) := by
        simp [ticketTaken, crowdedLock, UInt32.add_assoc]
      have arrived : Function.update (crowdedThread lock psl thread m) (m + 2)
          (standing (.pausing psl ((crowdedLock lock psl m).requests psl)
            (lockWaitStart cptltktPauseIters))) = crowdedThread lock psl thread (m + 1) := by
        funext t
        by_cases last : t = m + 2
        · subst last
          simp [crowdedThread, crowdedLock]
        · have same : t < m + 1 + 2 <-> t < m + 2 := by omega
          simp only [Function.update_of_ne last, crowdedThread, same]
      have run' := ticket.run next run
      rw [oneMore, arrived] at run'
      exact ⟨_, run'⟩


/-- With `2 ^ 32` tickets outstanding, two waiters at the only socket have the same one. -/
theorem underflow_manyTickets :
    exists (trace : List (CptltktLabel Nat 1)) (s : Machine Nat _ _),
      (recordedSystem 1 false).Run TransitionSystem.unguarded trace s ∧
        ¬BoundedHandOff trace s 0 := by
  have start : (system 1 false).Run TransitionSystem.unguarded [] (fresh Nat 1) :=
    .start fresh_init
  rcases run_fill (show 0 ≠ 1 by decide) (rounds_afterRounds 0 0).free rfl rfl rfl start with
    ⟨_, lock₁, run₁, filled⟩
  have occupied₁ : Occupied lock₁ 0 (2 + 2 * 49) := filled
  rcases run_exchanges (show 1 ≠ 0 by decide) 49 (by decide) occupied₁ rfl rfl run₁ with
    ⟨_, lock, run₂, occupied⟩
  have wraps : wrap (2 ^ 32) = 0 := by decide
  have positive : 0 < 2 ^ 32 := by decide
  generalize 2 ^ 32 = n at wraps positive
  have outside : forall t, 2 ≤ t ->
      Function.update (fresh Nat 1).thread 1 (standing .holding) t = standing .outside := by
    intro t later
    rw [Function.update_of_ne (by omega)]
    rfl
  rcases run_crowded 0 outside run₂ (n + 2) with ⟨_, run₃⟩
  have requests : (crowdedLock lock 0 (n + 2)).requests 0 = lock.grant 0 + 3 := by
    have shown : wrap (n + 2) = 2 := by
      rw [wrap_succ, wrap_succ, wraps]
      rfl
    simp only [crowdedLock, Function.update_self, occupied.requests, shown, UInt32.add_assoc]
    rfl
  have waits : forall t, t = 2 ∨ t = n + 2 ->
      crowdedThread lock 0 (Function.update (fresh Nat 1).thread 1 (standing .holding)) (n + 2) t =
        standing (.pausing 0 (lock.grant 0 + 1) (lockWaitStart cptltktPauseIters)) := by
    rintro t (rfl | rfl) <;> simp [crowdedThread, occupied.requests, wraps]
  have current : (crowdedLock lock 0 (n + 2)).curPsl = some 0 := occupied.curPsl
  rcases run_sameTicket (show 2 ≠ 1 by decide) (show n + 2 ≠ 1 by omega) (show 2 ≠ n + 2 by omega)
    current requests occupied.batchCount rfl (waits 2 (Or.inl rfl))
    (waits (n + 2) (Or.inr rfl)) run₃ with ⟨_, s, run₄, decrements, zero⟩
  rcases Program.run_recorded run₄ with ⟨records, recorded⟩
  exact ⟨records, s, recorded, not_boundedHandOff decrements zero⟩

/-- Neither the bound on the sockets nor the bound on the tickets can be left out. -/
theorem unbounded_handOff :
    (exists (trace : List (CptltktLabel (Fin 3) (2 ^ 31 + 1))) (s : Machine (Fin 3) _ _),
      (recordedSystem (2 ^ 31 + 1) false).Run (Program.onRecords roomy) trace s ∧
        ¬BoundedHandOff trace s 1) ∧
    exists (trace : List (CptltktLabel Nat 1)) (s : Machine Nat _ _),
      (recordedSystem 1 false).Run TransitionSystem.unguarded trace s ∧
        ¬BoundedHandOff trace s 0 :=
  ⟨underflow_manySockets, underflow_manyTickets⟩

end Cptltkt

end UserLocks
end Autolock
