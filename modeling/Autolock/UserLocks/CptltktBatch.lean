import Autolock.Concurrency.CountSince
import Autolock.UserLocks.CptltktSafety

namespace Autolock
namespace UserLocks

open Concurrency

/-!
# How often a socket passes the cohort lock on

`unlock` tests `batch_count`, decrements it on the path that passes the outer
lock on, and sets it on one of the two paths that release it; where nobody
waits at the socket it stays as it is.  As long as a socket has the outer lock,
the passes since it acquired that lock and those that `batch_count` still
allows add up to no more than a batch.
-/

namespace CptltktPc

variable {N : Nat}

/-- The step from `interYielding` that sees the ticket of the socket granted. -/
def acquiresInterSocketLock (psl : Fin N) : CptltktPc N -> CptltktPc N -> Bool
  | .interYielding _ _, .interYielding _ _ => false
  | .interYielding psl' _, _ => psl' = psl
  | _, _ => false

/-- The step that hands on the inner lock of a socket which keeps the outer one. -/
def passesLocally (psl : Fin N) : CptltktPc N -> Bool
  | .passGrant psl' _ => psl' = psl
  | _ => false

end CptltktPc

namespace Cptltkt

variable {Tid : Type} {N : Nat}

abbrev CptltktLabel (Tid : Type) (N : Nat) :=
  Tid × StepRecord (CptltktThread N) (CptltktAction N) CptltktEvent

/-- The cohort lock with all that a step shows of its thread. -/
abbrev recordedSystem [DecidableEq Tid] (N : Nat) [NeZero N] (autolock : Bool) :=
  (program Tid N autolock).recorded.system init

def acquiresInterSocketLock (psl : Fin N) (label : CptltktLabel Tid N) : Bool :=
  label.2.before.pc.acquiresInterSocketLock psl label.2.after.pc

def passesLocally (psl : Fin N) (label : CptltktLabel Tid N) : Bool :=
  label.2.before.pc.passesLocally psl

/-- The local hand-offs of a socket since it last acquired the inter-socket lock. -/
def passed (trace : List (CptltktLabel Tid N)) (psl : Fin N) : Nat :=
  countSince (acquiresInterSocketLock psl) (passesLocally psl) trace

/-- The hand-offs of a socket are bounded by the batch, and its count does not underflow. -/
structure BoundedHandOff (trace : List (CptltktLabel Tid N))
    (s : Machine Tid (CptltktLock N) (CptltktThread N)) (psl : Fin N) : Prop where
  /-- Where the socket does not acquire the inter-socket lock, it passes it on
  at most a hundred times. -/
  passes : forall stretch, stretch <:+: trace ->
    (forall label, label ∈ stretch -> acquiresInterSocketLock psl label = false) ->
    stretch.countP (passesLocally psl) ≤ cptltktSocketBatchCount.toNat
  /-- Nobody is about to decrement a count that is zero. -/
  decrements : forall t nextGrant, (s.thread t).pc = .loadBatchCount psl nextGrant ->
    s.shared.batchCount psl ≠ 0

/-! ## What a step does to the counts -/

/-- The hand-offs after a step from one program point to another. -/
def passedNext (before : Fin N -> Nat) (pc pc' : CptltktPc N) (psl : Fin N) : Nat :=
  if pc.acquiresInterSocketLock psl pc' then 0
  else before psl + if pc.passesLocally psl then 1 else 0

theorem passed_append (trace : List (CptltktLabel Tid N)) (label : CptltktLabel Tid N) :
    passed (trace ++ [label]) = passedNext (passed trace) label.2.before.pc label.2.after.pc := by
  funext psl
  unfold passedNext
  split
  · next acquires => exact countSince_reset acquires
  · next goesOn => exact countSince_append (Bool.eq_false_of_not_eq_true goesOn)

variable [NeZero N] {lock lock' : CptltktLock N} {l l' : CptltktThread N} {t u : Tid}
  {before : Fin N -> Nat} {psl : Fin N}

/-- What a step of a thread at a program point does to the count of a socket
and to the number of its hand-offs. -/
inductive BatchMove (lock lock' : CptltktLock N) (before after : Fin N -> Nat) (psl : Fin N) :
    CptltktPc N -> Prop
  | same (pc : CptltktPc N) (batchCount : lock'.batchCount psl = lock.batchCount psl)
      (hand : after psl = before psl) : BatchMove lock lock' before after psl pc
  | acquires (reqNum : UInt32) (batchCount : lock'.batchCount psl = lock.batchCount psl)
      (hand : after psl = 0) : BatchMove lock lock' before after psl (.interYielding psl reqNum)
  | stores (nextGrant batchCount : UInt32) (stored : lock'.batchCount psl = batchCount)
      (hand : after psl = before psl) :
      BatchMove lock lock' before after psl (.storeBatchCount psl nextGrant batchCount)
  | passes (nextGrant : UInt32) (batchCount : lock'.batchCount psl = lock.batchCount psl)
      (hand : after psl = before psl + 1) :
      BatchMove lock lock' before after psl (.passGrant psl nextGrant)
  | resets (nextGrant : UInt32) (stored : lock'.batchCount psl = cptltktSocketBatchCount)
      (hand : after psl = before psl) :
      BatchMove lock lock' before after psl (.resetBatchCount psl nextGrant)

theorem step_batchMove {autolock : Bool} {action : CptltktAction N} {event : CptltktEvent}
    (stepped : step autolock t action lock l = some (lock', l', event)) (before : Fin N -> Nat)
    (psl : Fin N) :
    BatchMove lock lock' before (passedNext before l.pc l'.pc) psl l.pc := by
  rcases l with ⟨pc, page⟩
  cases pc <;> cases action <;> simp only [step, reduceCtorEq] at stepped
  case interYielding.run psl' reqNum =>
    split at stepped
    · cases stepped
      by_cases same : psl' = psl
      · subst same
        refine .acquires reqNum rfl ?_
        cases autolock <;>
          simp [passedNext, hasGlobalLock, CptltktPc.acquiresInterSocketLock]
      · refine .same _ rfl ?_
        cases autolock <;>
          simp [passedNext, hasGlobalLock, CptltktPc.acquiresInterSocketLock,
            CptltktPc.passesLocally, same]
    · cases stepped
      exact .same _ rfl rfl
  case storeBatchCount.run psl' nextGrant batchCount =>
    cases stepped
    by_cases same : psl' = psl
    · subst same
      exact .stores nextGrant batchCount (Function.update_self ..) rfl
    · exact .same _ (Function.update_of_ne (Ne.symm same) ..) rfl
  case resetBatchCount.run psl' nextGrant =>
    cases stepped
    by_cases same : psl' = psl
    · subst same
      exact .resets nextGrant (Function.update_self ..) rfl
    · exact .same _ (Function.update_of_ne (Ne.symm same) ..) rfl
  case passGrant.run psl' nextGrant =>
    cases stepped
    by_cases same : psl' = psl
    · subst same
      refine .passes nextGrant rfl ?_
      simp [passedNext, CptltktPc.acquiresInterSocketLock, CptltktPc.passesLocally]
    · refine .same _ rfl ?_
      simp [passedNext, CptltktPc.acquiresInterSocketLock, CptltktPc.passesLocally, same]
  case loadCurPsl.run =>
    split at stepped <;> cases stepped
    exact .same _ rfl rfl
  all_goals first
    | cases stepped; exact .same _ rfl rfl
    | split at stepped <;> cases stepped <;> exact .same _ rfl rfl

/-- Only a thread that is about to pass the lock on sets the flag of its socket. -/
theorem step_flag {autolock : Bool} {action : CptltktAction N} {event : CptltktEvent}
    (stepped : step autolock t action lock l = some (lock', l', event))
    (flag : lock'.socketGrant psl ≠ cptltktDoesntHaveSocket) :
    lock.socketGrant psl ≠ cptltktDoesntHaveSocket ∨
      exists nextGrant, l.pc = .setSocketGrant psl nextGrant := by
  rcases l with ⟨pc, page⟩
  cases pc <;> cases action <;> simp only [step, reduceCtorEq] at stepped
  case setSocketGrant.run psl' nextGrant =>
    cases stepped
    by_cases same : psl = psl'
    · subst same
      exact Or.inr ⟨nextGrant, rfl⟩
    · exact Or.inl (by simpa [Function.update_of_ne same] using flag)
  case clearSocketGrant.run psl' =>
    left
    by_cases same : psl = psl'
    · subst same
      split at stepped <;> cases stepped <;>
        exact absurd (Function.update_self ..) flag
    · split at stepped <;> cases stepped <;> simpa [Function.update_of_ne same] using flag
  case loadCurPsl.run =>
    split at stepped <;> cases stepped
    exact Or.inl flag
  all_goals first
    | cases stepped; exact Or.inl flag
    | split at stepped <;> cases stepped <;> exact Or.inl flag

/-! ## The invariant -/

/-- The hand-offs made and those that are left add up to no more than a batch. -/
def Within (before : Fin N -> Nat) (lock : CptltktLock N) (psl : Fin N) : Prop :=
  before psl + (lock.batchCount psl).toNat ≤ cptltktSocketBatchCount.toNat

/-- What a thread that has the outer lock for its socket knows of the count. -/
def Owes (before : Fin N -> Nat) (lock : CptltktLock N) : CptltktPc N -> Prop
  | .clearSocketGrant psl | .disarm psl | .interDisarm psl _ | .storeCurPsl psl _
  | .storeOwnerReqNum psl _ | .loadGrant psl | .loadRequests psl _ | .testBatchCount psl _ =>
      Within before lock psl
  | .holding | .loadCurPsl => forall psl, lock.curPsl = some psl -> Within before lock psl
  | .loadBatchCount psl _ => Within before lock psl ∧ lock.batchCount psl ≠ 0
  | .storeBatchCount psl _ batchCount =>
      Within before lock psl ∧ batchCount.toNat + 1 = (lock.batchCount psl).toNat
  -- The hand-off has been taken from the count and is not made yet.
  | .setSocketGrant psl _ | .passGrant psl _ =>
      before psl + (lock.batchCount psl).toNat < cptltktSocketBatchCount.toNat
  | _ => True

/-- The books of all sockets are in order. -/
structure Tally (before : Fin N -> Nat) (s : Machine Tid (CptltktLock N) (CptltktThread N)) :
    Prop where
  batchCount : forall psl, (s.shared.batchCount psl).toNat ≤ cptltktSocketBatchCount.toNat
  passed : forall psl, before psl ≤ cptltktSocketBatchCount.toNat
  /-- A socket that has been left the outer lock is within its batch. -/
  left : forall psl, s.shared.socketGrant psl ≠ cptltktDoesntHaveSocket ->
    Within before s.shared psl
  owes : forall t, Owes before s.shared (s.thread t).pc

omit [NeZero N] in
theorem tally_init {s : Machine Tid (CptltktLock N) (CptltktThread N)} (initial : init s) :
    Tally (passed ([] : List (CptltktLabel Tid N))) s := by
  rcases s with ⟨lock, thread⟩
  rcases initial with ⟨zeroed, outside⟩
  have none : forall psl : Fin N, passed ([] : List (CptltktLabel Tid N)) psl = 0 :=
    fun _ => countSince_nil
  subst zeroed
  refine ⟨fun _ => Nat.zero_le _, fun psl => ?_, fun _ flag => absurd rfl flag, fun t => ?_⟩
  · rw [none]
    exact Nat.zero_le _
  · rw [(outside t).1]
    trivial

section ghost

variable {g : Ghost N Tid} {after : Fin N -> Nat}

omit [NeZero N] in
/-- The socket for which a thread moves the count is one whose inner lock it holds. -/
theorem BatchMove.holding (move : BatchMove lock lock' before after psl l.pc)
    (here : g.At t (place l.pc)) :
    (lock'.batchCount psl = lock.batchCount psl ∧ after psl = before psl) ∨
      (g.cohort.inner psl).Holding t := by
  rcases l with ⟨pc, page⟩
  cases move with
  | same pc batchCount hand => exact Or.inl ⟨batchCount, hand⟩
  | acquires reqNum batchCount hand => exact Or.inr here.2.1
  | stores nextGrant batchCount stored hand => exact Or.inr here.1.alone.holds
  | passes nextGrant batchCount hand => exact Or.inr here.1.alone.holds
  | resets nextGrant stored hand => exact Or.inr here.1.alone.holds

/-- What other threads do does not change the books of a thread. -/
theorem Owes.keep {pc : CptltktPc N} (owes : Owes before lock pc) (explained : Explained g lock)
    (here : g.At u (place pc))
    (curPsl : g.cohort.token.owner? = some u -> lock'.curPsl = lock.curPsl)
    (same : forall psl, (g.cohort.inner psl).Holding u ->
      lock'.batchCount psl = lock.batchCount psl ∧ after psl = before psl) :
    Owes after lock' pc := by
  have within : forall psl, (g.cohort.inner psl).Holding u -> Within before lock psl ->
      Within after lock' psl := by
    intro psl holds within
    rw [Within, (same psl holds).1, (same psl holds).2]
    exact within
  have current : (exists s, g.Owns u s (.held u)) ->
      (forall psl, lock.curPsl = some psl -> Within before lock psl) ->
      forall psl, lock'.curPsl = some psl -> Within after lock' psl := by
    rintro ⟨s, owns⟩ known psl now
    rw [curPsl (owns.mine rfl)] at now
    have here : s = psl :=
      Option.some.inj (owns.curPsl.symm.trans (explained.curPsl.symm.trans now))
    subst here
    exact within s owns.alone.holds (known s now)
  cases pc
  case clearSocketGrant psl => exact within psl here.1.holds owes
  case disarm psl => exact within psl (Ghost.Owns.alone here).holds owes
  case interDisarm psl _ => exact within psl here.1.holds owes
  case storeCurPsl psl _ => exact within psl here.1.holds owes
  case storeOwnerReqNum psl _ => exact within psl here.1.holds owes
  case holding => exact current here owes
  case loadCurPsl => exact current here owes
  case loadGrant psl => exact within psl (Ghost.Owns.alone here).holds owes
  case loadRequests psl _ => exact within psl here.1.alone.holds owes
  case testBatchCount psl _ => exact within psl here.1.alone.holds owes
  case loadBatchCount psl _ =>
    have holds := here.1.alone.holds
    exact ⟨within psl holds owes.1, (same psl holds).1 ▸ owes.2⟩
  case storeBatchCount psl _ _ =>
    have holds := here.1.alone.holds
    exact ⟨within psl holds owes.1, owes.2.trans (congrArg _ (same psl holds).1.symm)⟩
  case setSocketGrant psl _ =>
    rcases same psl here.1.alone.holds with ⟨sameCount, sameHand⟩
    simpa only [Owes, sameCount, sameHand] using owes
  case passGrant psl _ =>
    rcases same psl here.1.alone.holds with ⟨sameCount, sameHand⟩
    simpa only [Owes, sameCount, sameHand] using owes
  all_goals trivial

/-- Each program point of a thread leads to what the thread knows at the next one. -/
theorem owes_step {autolock : Bool} {action : CptltktAction N} {event : CptltktEvent}
    (stepped : step autolock t action lock l = some (lock', l', event))
    (explained : Explained g lock) (here : g.At t (place l.pc))
    (bounded : forall psl, (lock.batchCount psl).toNat ≤ cptltktSocketBatchCount.toNat)
    (left : forall psl, lock.socketGrant psl ≠ cptltktDoesntHaveSocket -> Within before lock psl)
    (owes : Owes before lock l.pc) : Owes (passedNext before l.pc l'.pc) lock' l'.pc := by
  -- The thread returns from `lock` at the socket that it has left in `cur_psl`.
  have returns : forall psl, lock.curPsl = some psl -> Within before lock psl ->
      forall psl', lock.curPsl = some psl' -> Within before lock psl' := by
    intro psl current within psl' current'
    rcases Option.some.inj (current.symm.trans current') with rfl
    exact within
  rcases l with ⟨pc, page⟩
  cases pc <;> cases action <;> simp only [step, reduceCtorEq] at stepped
  case fetchAddRequests.run psl =>
    cases stepped
    cases autolock <;> trivial
  case pausing.run psl reqNum tmpWaitIters =>
    split at stepped
    · cases stepped
      trivial
    · cases stepped
      cases lockWaitNext tmpWaitIters <;> trivial
  case fetchAddRequest.run psl =>
    cases stepped
    cases autolock <;> trivial
  case loadSocketGrant.run psl =>
    split at stepped
    · next flag =>
        cases stepped
        exact left psl flag
    · cases stepped
      trivial
  case clearSocketGrant.run psl =>
    have marked : g.cohort.token.socket? = some psl := here.2.symm ▸ rfl
    have current := explained.curPsl.trans (explained.left psl marked).1
    split at stepped <;> cases stepped
    · exact owes
    · exact returns psl current owes
  case disarm.run psl =>
    cases stepped
    exact returns psl (explained.curPsl.trans (Ghost.Owns.curPsl here)) owes
  case interYielding.run psl reqNum =>
    split at stepped
    · cases stepped
      cases autolock <;>
        simpa [Owes, Within, passedNext, hasGlobalLock, CptltktPc.acquiresInterSocketLock]
          using bounded psl
    · cases stepped
      trivial
  case storeOwnerReqNum.run psl reqNum =>
    cases stepped
    exact returns psl (explained.curPsl.trans here.2.2.2) owes
  case loadCurPsl.run =>
    split at stepped
    · next psl current =>
        cases stepped
        exact owes psl current
    · cases stepped
  case testBatchCount.run psl nextGrant =>
    split at stepped
    · next nonzero =>
        cases stepped
        exact ⟨owes, nonzero⟩
    · cases stepped
      trivial
  case loadBatchCount.run psl nextGrant =>
    cases stepped
    exact ⟨owes.1, toNat_sub_one owes.2⟩
  case storeBatchCount.run psl nextGrant batchCount =>
    cases stepped
    rcases owes with ⟨within, stored⟩
    show before psl + (Function.update lock.batchCount psl batchCount psl).toNat < _
    rw [Function.update_self]
    unfold Within at within
    omega
  all_goals first
    | cases stepped; first | exact owes | trivial
    | split at stepped <;> cases stepped <;> first | exact owes | trivial

omit [NeZero N] in
/-- No step takes a socket over its limits. -/
theorem BatchMove.bounded {pc : CptltktPc N} (move : BatchMove lock lock' before after psl pc)
    (owes : Owes before lock pc)
    (count : (lock.batchCount psl).toNat ≤ cptltktSocketBatchCount.toNat)
    (hand : before psl ≤ cptltktSocketBatchCount.toNat) :
    (lock'.batchCount psl).toNat ≤ cptltktSocketBatchCount.toNat ∧
      after psl ≤ cptltktSocketBatchCount.toNat := by
  cases move with
  | same pc sameCount sameHand => exact ⟨sameCount ▸ count, sameHand ▸ hand⟩
  | acquires reqNum sameCount anew => exact ⟨sameCount ▸ count, anew ▸ Nat.zero_le _⟩
  | stores nextGrant batchCount stored sameHand =>
      rcases owes with ⟨_, less⟩
      exact ⟨by rw [stored]; omega, sameHand ▸ hand⟩
  | passes nextGrant sameCount more =>
      have room : before psl + (lock.batchCount psl).toNat < _ := owes
      exact ⟨sameCount ▸ count, by rw [more]; omega⟩
  | resets nextGrant stored sameHand => exact ⟨stored ▸ Nat.le_refl _, sameHand ▸ hand⟩

omit [NeZero N] in
/-- A socket that is within its batch stays so unless its count is set anew. -/
theorem BatchMove.within {pc : CptltktPc N} (move : BatchMove lock lock' before after psl pc)
    (owes : Owes before lock pc)
    (count : (lock.batchCount psl).toNat ≤ cptltktSocketBatchCount.toNat)
    (noReset : forall nextGrant, pc ≠ .resetBatchCount psl nextGrant)
    (within : Within before lock psl) : Within after lock' psl := by
  unfold Within at within ⊢
  cases move with
  | same pc sameCount sameHand => rwa [sameCount, sameHand]
  | acquires reqNum sameCount anew =>
      rw [sameCount, anew]
      omega
  | stores nextGrant batchCount stored sameHand =>
      rcases owes with ⟨_, less⟩
      rw [stored, sameHand]
      omega
  | passes nextGrant sameCount more =>
      have room : before psl + (lock.batchCount psl).toNat < _ := owes
      rw [sameCount, more]
      omega
  | resets nextGrant => exact absurd rfl (noReset nextGrant)

/-- Only a thread that has the outer lock stores `cur_psl`. -/
theorem step_curPsl {autolock : Bool} {action : CptltktAction N} {event : CptltktEvent}
    (stepped : step autolock t action lock l = some (lock', l', event))
    (here : g.At t (place l.pc)) (different : u ≠ t) (owner : g.cohort.token.owner? = some u) :
    lock'.curPsl = lock.curPsl := by
  have effect := step_effect stepped
  generalize place l.pc = there at here effect
  generalize place l'.pc = there' at effect
  cases effect
  case storesCurPsl =>
    rw [here.2.1] at owner
    exact absurd (Option.some.inj owner).symm different
  all_goals rfl

/-- Every step keeps the books of all sockets in order. -/
theorem Tally.step [DecidableEq Tid] {s : Machine Tid (CptltktLock N) (CptltktThread N)}
    (tally : Tally before s) (explained : Explained g s.shared)
    (places : forall u, g.At u (place (s.thread u).pc)) {autolock : Bool}
    {action : CptltktAction N} {event : CptltktEvent}
    (stepped : Cptltkt.step autolock t action s.shared (s.thread t) = some (lock', l', event)) :
    Tally (passedNext before (s.thread t).pc l'.pc) ⟨lock', Function.update s.thread t l'⟩ := by
  have moves := step_batchMove stepped before
  have owes := tally.owes t
  refine ⟨fun psl => ((moves psl).bounded owes (tally.batchCount psl) (tally.passed psl)).1,
    fun psl => ((moves psl).bounded owes (tally.batchCount psl) (tally.passed psl)).2,
    fun psl flag => ?_, ?_⟩
  · rcases step_flag stepped flag with already | ⟨nextGrant, here⟩
    · refine (moves psl).within owes (tally.batchCount psl) (fun nextGrant here => ?_)
        (tally.left psl already)
      -- The thread that sets the count anew has the outer lock, so no socket has been left it.
      have owns := places t
      rw [here] at owns
      have marked := (explained.socketGrant psl).mp already
      rw [owns.1.token] at marked
      cases marked
    · rw [here] at owes
      refine (moves psl).within (tally.owes t) (tally.batchCount psl) (fun _ reset => ?_)
        (Nat.le_of_lt owes)
      cases here.symm.trans reset
  · refine (Function.forall_update_iff s.thread fun _ l => Owes _ lock' l.pc).mpr
      ⟨owes_step stepped explained (places t) tally.batchCount tally.left owes,
        fun u different => ?_⟩
    refine (tally.owes u).keep explained (places u) (step_curPsl stepped (places t) different) ?_
    intro psl holds
    rcases (moves psl).holding (places t) with unmoved | moves
    · exact unmoved
    · exact absurd (holds.unique moves) different

end ghost

/-- In every recorded run the books are in order. -/
theorem tally_of_run [DecidableEq Tid] (small : N ≤ 2 ^ 31) {autolock : Bool}
    {trace : List (CptltktLabel Tid N)} {s : Machine Tid (CptltktLock N) (CptltktThread N)}
    (run : (recordedSystem N autolock).Run (Program.onRecords roomy) trace s) :
    Tally (passed trace) s := by
  induction run with
  | start initial => exact tally_init initial
  | step run moved _ inductionHypothesis =>
      rcases Program.recorded_next moved with ⟨lock', stepped, before, rfl⟩
      rcases (threadInvariant small autolock).run (Program.run_unrecord run) with
        ⟨g, _, ⟨explained, _⟩, places⟩
      rw [passed_append, before]
      exact inductionHypothesis.step explained places stepped

/-- For up to `2 ^ 31` sockets, and fewer than `2 ^ 32` tickets outstanding at
each, a socket passes the inter-socket lock on at most a hundred times between
two of its acquisitions, and never decrements a count that is zero. -/
theorem bounded_handOff [DecidableEq Tid] (small : N ≤ 2 ^ 31) (autolock : Bool)
    {trace : List (CptltktLabel Tid N)} {s : Machine Tid (CptltktLock N) (CptltktThread N)}
    (run : (recordedSystem N autolock).Run (Program.onRecords roomy) trace s) (psl : Fin N) :
    BoundedHandOff trace s psl where
  passes := by
    intro stretch inside goesOn
    refine countP_le_of_run (fun labels s' earlier => ?_) run inside goesOn
    exact (tally_of_run small earlier).passed psl
  decrements := by
    intro t nextGrant here
    have owes := (tally_of_run small run).owes t
    rw [here] at owes
    exact owes.2

/-- One thread sets the count of its socket, and the other, which finds a waiter
too, passes the outer lock back. -/
def handBack : List (Bool × CptltktAction 3) :=
  (false, .callLock (.last 2)) :: List.replicate 7 (false, .run) ++
    [(true, .callLock (.last 2)), (true, .run), (false, .callUnlock)] ++ List.replicate 8 (false, .run) ++
    List.replicate 6 (true, .run) ++ [(false, .callLock (.last 2)), (false, .run), (true, .callUnlock)] ++
    List.replicate 8 (true, .run) ++ List.replicate 3 (false, .run)

theorem bounded_handOff_handBack :
    let played := (program Bool 3 false).recorded.play handBack (fresh Bool 3)
    played.2.countP (passesLocally 2) = 1 ∧ played.1.shared.batchCount 2 = 99 ∧
      BoundedHandOff played.2 played.1 2 :=
  ⟨by decide, by decide, bounded_handOff (by decide) false
    ((Program.run_play fresh_init handBack (by decide)).restrict
      fun _ _ _ s' _ => roomy_of_few (by decide) s') 2⟩

end Cptltkt

end UserLocks
end Autolock
