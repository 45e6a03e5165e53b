import Autolock.Concurrency.TransitionSystem
import Mathlib.Data.List.Nodup
import Mathlib.Data.Set.Card

namespace Autolock
namespace Concurrency

/-!
# What a lock is for: mutual exclusion, and first come first served

Two abstract machines over the same moves.  In `mutex` a move acquires the
lock only when nobody holds it.  In `fifoLock` a thread first arrives, which
appends it to a queue, and the queue is then served strictly in order.  The
second refines the first.

The queue is never shortened: `arrivals` keeps every arrival, and two counters
say how many of them have been granted and released.  A position in `arrivals`
is therefore an unbounded ticket number, which concrete locks store modulo a
power of two.
-/

/-- The moves of a lock that its clients can tell apart. -/
inductive LockMove (Tid : Type) where
  | arrive (t : Tid)
  | acquire (t : Tid)
  | release (t : Tid)
  deriving DecidableEq

namespace LockMove

variable {Tid : Type}

def arrival? : LockMove Tid -> Option Tid
  | .arrive t => some t
  | _ => none

def acquisition? : LockMove Tid -> Option Tid
  | .acquire t => some t
  | _ => none

def release? : LockMove Tid -> Option Tid
  | .release t => some t
  | _ => none

end LockMove

/-- Reading one kind of move off the observed moves of a run is reading it off the labels. -/
theorem filterMap_observe {Label Tid : Type} {observe : Label -> List (LockMove Tid)}
    {read : LockMove Tid -> Option Tid} {single : Label -> Option Tid}
    (agrees : forall label, (observe label).filterMap read = (single label).toList)
    (trace : List Label) : (trace.flatMap observe).filterMap read = trace.filterMap single := by
  induction trace with
  | nil => rfl
  | cons label trace inductionHypothesis =>
      rw [List.flatMap_cons, List.filterMap_append, inductionHypothesis, agrees,
        List.filterMap_cons]
      cases single label <;> rfl

/-! ## Mutual exclusion -/

/-- The holder, if any, is the whole state of a mutual exclusion lock. -/
def mutex (Tid : Type) : TransitionSystem (Option Tid) (LockMove Tid) where
  init := fun holder => holder = none
  next := fun holder move holder' =>
    match move with
    | .arrive _ => holder' = holder
    | .acquire t => holder = none ∧ holder' = some t
    | .release t => holder = some t ∧ holder' = none

/-! ## First come, first served -/

/-- Everyone who ever arrived, in order, with the number of grants and of releases. -/
structure FifoState (Tid : Type) where
  arrivals : List Tid
  grants : Nat
  releases : Nat

namespace FifoState

variable {Tid : Type}

/-- `t` holds the position `i` of the queue and has not released it. -/
def HasTicket (s : FifoState Tid) (t : Tid) (i : Nat) : Prop :=
  s.arrivals[i]? = some t ∧ s.releases ≤ i

/-- `t` has a ticket that has not been granted yet. -/
def Waiting (s : FifoState Tid) (t : Tid) (i : Nat) : Prop :=
  s.arrivals[i]? = some t ∧ s.releases ≤ i ∧ s.grants ≤ i

/-- `t` has been granted the lock and has not released it. -/
def Holding (s : FifoState Tid) (t : Tid) : Prop :=
  s.grants = s.releases + 1 ∧ s.arrivals[s.releases]? = some t

/-- `t` has no ticket. -/
def Outside (s : FifoState Tid) (t : Tid) : Prop :=
  forall i, s.releases ≤ i -> s.arrivals[i]? ≠ some t

def arrive (s : FifoState Tid) (t : Tid) : FifoState Tid :=
  { s with arrivals := s.arrivals ++ [t] }

def acquire (s : FifoState Tid) : FifoState Tid :=
  { s with grants := s.grants + 1 }

def release (s : FifoState Tid) : FifoState Tid :=
  { s with releases := s.releases + 1 }

@[simp] theorem arrive_grants (s : FifoState Tid) (t : Tid) : (s.arrive t).grants = s.grants := rfl
@[simp] theorem arrive_releases (s : FifoState Tid) (t : Tid) :
    (s.arrive t).releases = s.releases := rfl
@[simp] theorem arrive_length (s : FifoState Tid) (t : Tid) :
    (s.arrive t).arrivals.length = s.arrivals.length + 1 := by
  simp [arrive]
@[simp] theorem acquire_arrivals (s : FifoState Tid) : s.acquire.arrivals = s.arrivals := rfl
@[simp] theorem acquire_grants (s : FifoState Tid) : s.acquire.grants = s.grants + 1 := rfl
@[simp] theorem acquire_releases (s : FifoState Tid) : s.acquire.releases = s.releases := rfl
@[simp] theorem release_arrivals (s : FifoState Tid) : s.release.arrivals = s.arrivals := rfl
@[simp] theorem release_grants (s : FifoState Tid) : s.release.grants = s.grants := rfl
@[simp] theorem release_releases (s : FifoState Tid) : s.release.releases = s.releases + 1 := rfl

/-- The counters are in order, at most one grant is open, and no thread has
two tickets at once. -/
structure WellFormed (s : FifoState Tid) : Prop where
  releases_le_grants : s.releases ≤ s.grants
  grants_le_releases : s.grants ≤ s.releases + 1
  grants_le_length : s.grants ≤ s.arrivals.length
  unique : forall t i j, s.HasTicket t i -> s.HasTicket t j -> i = j

theorem Waiting.hasTicket {s : FifoState Tid} {t : Tid} {i : Nat} (waiting : s.Waiting t i) :
    s.HasTicket t i :=
  ⟨waiting.1, waiting.2.1⟩

theorem Holding.hasTicket {s : FifoState Tid} {t : Tid} (holding : s.Holding t) :
    s.HasTicket t s.releases :=
  ⟨holding.2, Nat.le_refl _⟩

theorem HasTicket.lt_length {s : FifoState Tid} {t : Tid} {i : Nat} (ticket : s.HasTicket t i) :
    i < s.arrivals.length :=
  (List.getElem?_eq_some_iff.mp ticket.1).1

/-- At most one thread holds the lock. -/
theorem Holding.unique {s : FifoState Tid} {t u : Tid} (first : s.Holding t)
    (second : s.Holding u) : t = u :=
  Option.some.inj (first.2.symm.trans second.2)

theorem Outside.not_hasTicket {s : FifoState Tid} {t : Tid} (outside : s.Outside t) (i : Nat) :
    ¬ s.HasTicket t i :=
  fun ticket => outside i ticket.2 ticket.1

theorem not_outside_iff {s : FifoState Tid} {t : Tid} :
    ¬ s.Outside t <-> exists i, s.HasTicket t i := by
  simp only [Outside, HasTicket, not_forall, not_not]
  exact exists_congr fun i =>
    ⟨fun ⟨later, at_i⟩ => ⟨at_i, later⟩, fun ⟨at_i, later⟩ => ⟨later, at_i⟩⟩

/-! ### What each move does to the tickets of the thread that moves -/


theorem waiting_arrive_self {s : FifoState Tid} (wellFormed : s.WellFormed) (t : Tid) :
    (s.arrive t).Waiting t s.arrivals.length :=
  ⟨by simp [arrive], Nat.le_trans wellFormed.releases_le_grants wellFormed.grants_le_length,
    wellFormed.grants_le_length⟩

theorem holding_acquire_self {s : FifoState Tid} {t : Tid} (free : s.grants = s.releases)
    (first : s.arrivals[s.grants]? = some t) : s.acquire.Holding t :=
  ⟨by simp [free], by simpa [free] using first⟩

theorem outside_release_self {s : FifoState Tid} (wellFormed : s.WellFormed) {t : Tid}
    (holding : s.Holding t) : s.release.Outside t := by
  intro i later at_i
  simp only [release_releases, release_arrivals] at later at_i
  have same := wellFormed.unique t i s.releases ⟨at_i, by omega⟩ holding.hasTicket
  omega

/-! ### What each move leaves to the other threads -/

section others

variable {s : FifoState Tid} {t u : Tid}

theorem HasTicket.arrive {i : Nat} (ticket : s.HasTicket u i) (t : Tid) :
    (s.arrive t).HasTicket u i := by
  refine ⟨?_, ticket.2⟩
  simpa only [FifoState.arrive, List.getElem?_append_left ticket.lt_length] using ticket.1

theorem Waiting.arrive {i : Nat} (waiting : s.Waiting u i) (t : Tid) :
    (s.arrive t).Waiting u i :=
  ⟨(waiting.hasTicket.arrive t).1, waiting.2⟩

theorem Holding.arrive (holding : s.Holding u) (t : Tid) : (s.arrive t).Holding u :=
  ⟨holding.1, (holding.hasTicket.arrive t).1⟩

theorem Outside.arrive (outside : s.Outside u) (different : u ≠ t) : (s.arrive t).Outside u := by
  intro i later at_i
  simp only [FifoState.arrive, List.getElem?_append] at at_i
  split at at_i
  · exact outside i later at_i
  · rw [List.getElem?_singleton] at at_i
    split at at_i
    · exact different (Option.some.inj at_i).symm
    · cases at_i

theorem Waiting.acquire {i : Nat} (waiting : s.Waiting u i)
    (first : s.arrivals[s.grants]? = some t) (different : u ≠ t) : s.acquire.Waiting u i := by
  refine ⟨waiting.1, waiting.2.1, ?_⟩
  have notFirst : i ≠ s.grants := by
    intro equal
    subst equal
    exact different (Option.some.inj (waiting.1.symm.trans first))
  have := waiting.2.2
  simp only [acquire_grants]
  omega

theorem HasTicket.release {i : Nat} (ticket : s.HasTicket u i)
    (holding : s.Holding t) (different : u ≠ t) : s.release.HasTicket u i := by
  refine ⟨ticket.1, ?_⟩
  have notHeld : i ≠ s.releases := by
    intro equal
    subst equal
    exact different (Option.some.inj (ticket.1.symm.trans holding.2))
  have := ticket.2
  simp only [release_releases]
  omega

theorem Waiting.release {i : Nat} (waiting : s.Waiting u i)
    (holding : s.Holding t) (different : u ≠ t) : s.release.Waiting u i :=
  ⟨waiting.1, (waiting.hasTicket.release holding different).2, waiting.2.2⟩

theorem Outside.release (outside : s.Outside u) : s.release.Outside u :=
  fun i later => outside i (Nat.le_of_succ_le later)

/-- What a thread can tell about its own tickets is still the case. -/
structure Keeps (s : FifoState Tid) (u : Tid) (s' : FifoState Tid) : Prop where
  outside : s.Outside u -> s'.Outside u
  waiting : forall i, s.Waiting u i -> s'.Waiting u i
  holding : s.Holding u -> s'.Holding u ∧ s'.releases = s.releases

theorem Keeps.refl (u : Tid) (s : FifoState Tid) : s.Keeps u s :=
  ⟨id, fun _ => id, fun holds => ⟨holds, rfl⟩⟩

theorem Keeps.trans {s' s'' : FifoState Tid} (first : s.Keeps u s') (second : s'.Keeps u s'') :
    s.Keeps u s'' where
  outside := fun outside => second.outside (first.outside outside)
  waiting := fun i waiting => second.waiting i (first.waiting i waiting)
  holding := by
    intro holding
    rcases first.holding holding with ⟨holding', same⟩
    rcases second.holding holding' with ⟨holding'', same'⟩
    exact ⟨holding'', same'.trans same⟩

theorem keeps_arrive (different : u ≠ t) : s.Keeps u (s.arrive t) where
  outside := fun outside => outside.arrive different
  waiting := fun _ waiting => waiting.arrive t
  holding := fun holding => ⟨holding.arrive t, rfl⟩

theorem keeps_acquire (free : s.grants = s.releases) (first : s.arrivals[s.grants]? = some t)
    (different : u ≠ t) : s.Keeps u s.acquire where
  outside := id
  waiting := fun _ waiting => waiting.acquire first different
  holding := fun holding => absurd (free.symm.trans holding.1) (Nat.ne_of_lt (Nat.lt_succ_self _))

theorem keeps_release (holding : s.Holding t) (different : u ≠ t) : s.Keeps u s.release where
  outside := fun outside => outside.release
  waiting := fun _ waiting => waiting.release holding different
  holding := fun other => absurd (other.unique holding) different

end others

/-! ### The moves keep the queue well formed -/

theorem WellFormed.arrive {s : FifoState Tid} (wellFormed : s.WellFormed) {t : Tid}
    (outside : s.Outside t) : (s.arrive t).WellFormed where
  releases_le_grants := wellFormed.releases_le_grants
  grants_le_releases := wellFormed.grants_le_releases
  grants_le_length := by
    simpa using Nat.le_succ_of_le wellFormed.grants_le_length
  unique := by
    -- A ticket of the new queue is an old one or the new last position.
    have oldOrLast : forall u i, (s.arrive t).HasTicket u i ->
        s.HasTicket u i ∨ (u = t ∧ i = s.arrivals.length) := by
      intro u i ticket
      have inside := ticket.lt_length
      simp only [arrive_length] at inside
      rcases ticket with ⟨at_i, later⟩
      simp only [FifoState.arrive, List.getElem?_append] at at_i
      split at at_i
      · exact Or.inl ⟨at_i, later⟩
      · have last : i = s.arrivals.length := by omega
        subst last
        simp only [Nat.sub_self, List.getElem?_cons_zero, Option.some.injEq] at at_i
        exact Or.inr ⟨at_i.symm, rfl⟩
    intro u i j first second
    rcases oldOrLast u i first with old_i | ⟨is_t, last_i⟩
    · rcases oldOrLast u j second with old_j | ⟨is_t, _⟩
      · exact wellFormed.unique u i j old_i old_j
      · exact absurd (is_t ▸ old_i) (outside.not_hasTicket i)
    · rcases oldOrLast u j second with old_j | ⟨_, last_j⟩
      · exact absurd (is_t ▸ old_j) (outside.not_hasTicket j)
      · exact last_i.trans last_j.symm

theorem WellFormed.acquire {s : FifoState Tid} (wellFormed : s.WellFormed) {t : Tid}
    (free : s.grants = s.releases) (first : s.arrivals[s.grants]? = some t) :
    s.acquire.WellFormed where
  releases_le_grants := Nat.le_succ_of_le wellFormed.releases_le_grants
  grants_le_releases := by simp [free]
  grants_le_length := (List.getElem?_eq_some_iff.mp first).1
  unique := wellFormed.unique

theorem WellFormed.release {s : FifoState Tid} (wellFormed : s.WellFormed) {t : Tid}
    (holding : s.Holding t) : s.release.WellFormed where
  releases_le_grants := holding.1.ge
  grants_le_releases := Nat.le_succ_of_le wellFormed.grants_le_releases
  grants_le_length := wellFormed.grants_le_length
  unique := fun t i j first second => wellFormed.unique t i j
    ⟨first.1, Nat.le_of_succ_le first.2⟩ ⟨second.1, Nat.le_of_succ_le second.2⟩

/-- The tickets in use are no more than the threads that may have one. -/
theorem WellFormed.tickets_le {s : FifoState Tid} (wellFormed : s.WellFormed) {inside : Set Tid}
    (covers : forall t, ¬ s.Outside t -> t ∈ inside) :
    ((s.arrivals.length - s.releases : Nat) : ℕ∞) ≤ inside.encard := by
  classical
  have distinct : (s.arrivals.drop s.releases).Nodup := by
    rw [List.nodup_iff_getElem?_ne_getElem?]
    intro i j less bounded equal
    have at_j := List.getElem?_eq_getElem bounded
    rw [List.getElem?_drop] at at_j
    rw [List.getElem?_drop, List.getElem?_drop] at equal
    have same := wellFormed.unique _ (s.releases + i) (s.releases + j)
      ⟨equal.trans at_j, Nat.le_add_right _ _⟩ ⟨at_j, Nat.le_add_right _ _⟩
    omega
  have contained : ((s.arrivals.drop s.releases).toFinset : Set Tid) ⊆ inside := by
    intro t member
    apply covers
    rcases List.mem_iff_getElem?.mp (List.mem_toFinset.mp member) with ⟨i, at_i⟩
    rw [List.getElem?_drop] at at_i
    exact not_outside_iff.mpr ⟨_, at_i, Nat.le_add_right _ _⟩
  have counted := Set.encard_le_encard contained
  rwa [Set.encard_coe_eq_coe_finsetCard, List.toFinset_card_of_nodup distinct,
    List.length_drop] at counted

theorem WellFormed.length_lt {s : FifoState Tid} (wellFormed : s.WellFormed) {inside : Set Tid}
    (covers : forall t, ¬ s.Outside t -> t ∈ inside) {bound : Nat}
    (few : inside.encard < bound) : s.arrivals.length < s.releases + bound := by
  have counted := (wellFormed.tickets_le covers).trans_lt few
  rw [Nat.cast_lt] at counted
  omega

end FifoState

/-- A lock that serves its clients in the order of their arrivals. -/
def fifoLock (Tid : Type) : TransitionSystem (FifoState Tid) (LockMove Tid) where
  init := fun s => s = ⟨[], 0, 0⟩
  next := fun s move s' =>
    match move with
    | .arrive t => s.Outside t ∧ s' = s.arrive t
    | .acquire t => s.grants = s.releases ∧ s.arrivals[s.grants]? = some t ∧ s' = s.acquire
    | .release t => s.Holding t ∧ s' = s.release

namespace FifoState

variable {Tid : Type}

/-- What the moves of a run say about the state it ends in: the arrivals are
exactly the queue, the acquisitions a prefix of it, the releases a prefix of those. -/
structure Explains (s : FifoState Tid) (moves : List (LockMove Tid)) : Prop where
  wellFormed : s.WellFormed
  arrivals_eq : moves.filterMap LockMove.arrival? = s.arrivals
  acquisitions_eq : moves.filterMap LockMove.acquisition? = s.arrivals.take s.grants
  releases_eq : moves.filterMap LockMove.release? = s.arrivals.take s.releases

theorem wellFormed_nil : (⟨[], 0, 0⟩ : FifoState Tid).WellFormed where
  releases_le_grants := Nat.le_refl 0
  grants_le_releases := Nat.zero_le 1
  grants_le_length := Nat.le_refl 0
  unique := by
    intro t i j ticket
    cases ticket.1

private theorem take_append_singleton {xs : List Tid} {n : Nat} {t : Tid}
    (bounded : n ≤ xs.length) : (xs ++ [t]).take n = xs.take n := by
  rw [List.take_append_of_le_length bounded]

private theorem take_succ_of_getElem? {xs : List Tid} {n : Nat} {t : Tid}
    (at_n : xs[n]? = some t) : xs.take n ++ [t] = xs.take (n + 1) := by
  rw [List.take_add_one, at_n, Option.toList_some]

theorem explains {s : FifoState Tid} {moves : List (LockMove Tid)}
    (run : (fifoLock Tid).Run TransitionSystem.unguarded moves s) : s.Explains moves := by
  refine run.invariant (fun moves s => s.Explains moves) ?_ ?_
  · rintro s rfl
    exact ⟨wellFormed_nil, rfl, rfl, rfl⟩
  · intro moves s move s' explained moved _
    rcases explained with ⟨wellFormed, arrivals_eq, acquisitions_eq, releases_eq⟩
    have grants_le := wellFormed.grants_le_length
    have releases_le := wellFormed.releases_le_grants
    cases move with
    | arrive t =>
        rcases moved with ⟨outside, rfl⟩
        refine ⟨wellFormed.arrive outside, ?_, ?_, ?_⟩ <;>
          simp only [List.filterMap_append, List.filterMap_cons, List.filterMap_nil,
            LockMove.arrival?, LockMove.acquisition?, LockMove.release?, arrive, List.append_nil,
            arrivals_eq, acquisitions_eq, releases_eq]
        · exact (take_append_singleton grants_le).symm
        · exact (take_append_singleton (by omega)).symm
    | acquire t =>
        rcases moved with ⟨free, first, rfl⟩
        refine ⟨wellFormed.acquire free first, ?_, ?_, ?_⟩ <;>
          simp only [List.filterMap_append, List.filterMap_cons, List.filterMap_nil,
            LockMove.arrival?, LockMove.acquisition?, LockMove.release?, acquire, List.append_nil,
            arrivals_eq, acquisitions_eq, releases_eq]
        exact take_succ_of_getElem? first
    | release t =>
        rcases moved with ⟨holding, rfl⟩
        refine ⟨wellFormed.release holding, ?_, ?_, ?_⟩ <;>
          simp only [List.filterMap_append, List.filterMap_cons, List.filterMap_nil,
            LockMove.arrival?, LockMove.acquisition?, LockMove.release?, release, List.append_nil,
            arrivals_eq, acquisitions_eq, releases_eq]
        exact take_succ_of_getElem? holding.2

/-- First come, first served: the threads acquire in the order of their arrivals. -/
theorem Explains.acquisitions_ordered {s : FifoState Tid} {moves : List (LockMove Tid)}
    (explained : s.Explains moves) :
    moves.filterMap LockMove.acquisition? <+: moves.filterMap LockMove.arrival? := by
  rw [explained.acquisitions_eq, explained.arrivals_eq]
  exact List.take_prefix _ _

/-! ## The queue is a mutual exclusion lock -/

/-- Forget the queue: only the thread with the open grant, if any, remains. -/
def holder (s : FifoState Tid) : Option Tid :=
  if s.grants = s.releases + 1 then s.arrivals[s.releases]? else none

theorem holder_eq_some {s : FifoState Tid} {t : Tid} : s.holder = some t <-> s.Holding t := by
  unfold holder Holding
  split <;> simp_all

theorem holder_arrive {s : FifoState Tid} (wellFormed : s.WellFormed) (t : Tid) :
    (s.arrive t).holder = s.holder := by
  have bounded := wellFormed.grants_le_length
  by_cases granted : s.grants = s.releases + 1
  · have inside : s.releases < s.arrivals.length := by omega
    simp [holder, granted, arrive, List.getElem?_append_left inside]
  · simp [holder, granted]

theorem holder_eq_none {s : FifoState Tid} (free : s.grants = s.releases) : s.holder = none := by
  simp [holder, free]

end FifoState

/-- Serving in order of arrival is one way of excluding each other. -/
def fifoLock_refines_mutex (Tid : Type) :
    (fifoLock Tid).Simulation TransitionSystem.unguarded (mutex Tid) (fun move => [move]) where
  rel := fun _ holder s => s.WellFormed ∧ holder = s.holder
  start := by
    rintro s rfl
    exact ⟨none, rfl, FifoState.wellFormed_nil, rfl⟩
  step := by
    rintro _ _ s move s' ⟨wellFormed, rfl⟩ moved _
    refine ⟨s'.holder, .single ?_, ?_, rfl⟩
    · cases move with
      | arrive t =>
          rcases moved with ⟨_, rfl⟩
          exact FifoState.holder_arrive wellFormed t
      | acquire t =>
          rcases moved with ⟨free, first, rfl⟩
          exact ⟨FifoState.holder_eq_none free,
            FifoState.holder_eq_some.mpr (FifoState.holding_acquire_self free first)⟩
      | release t =>
          rcases moved with ⟨holding, rfl⟩
          exact ⟨FifoState.holder_eq_some.mpr holding,
            FifoState.holder_eq_none (by simpa using holding.1)⟩
    · cases move with
      | arrive t =>
          rcases moved with ⟨outside, rfl⟩
          exact wellFormed.arrive outside
      | acquire t =>
          rcases moved with ⟨free, first, rfl⟩
          exact wellFormed.acquire free first
      | release t =>
          rcases moved with ⟨holding, rfl⟩
          exact wellFormed.release holding

end Concurrency
end Autolock
