import Mathlib.Algebra.BigOperators.Group.Finset.Piecewise
import Mathlib.Algebra.Order.BigOperators.Group.Finset
import Mathlib.Data.Fintype.Card
import Mathlib.Logic.Function.Basic

namespace Autolock
namespace Concurrency

/-!
# A barrier that is used again and again

As many threads as the barrier was initialised for must call its wait before any
of them returns; one of these threads is told that it is the serial one.  Which
one that is, is not specified.  The threads may come back for the next round
before all have returned from the last.
-/

/-- What is counted over all threads when one of them moves. -/
theorem sum_update {Tid Local : Type} [Fintype Tid] [DecidableEq Tid] (count : Local -> Nat)
    (thread : Tid -> Local) (t : Tid) (l : Local) :
    (∑ u, count (Function.update thread t l u)) + count (thread t) =
      (∑ u, count (thread u)) + count l := by
  have moved : (fun u => count (Function.update thread t l u)) =
      Function.update (fun u => count (thread u)) t (count l) := Function.comp_update count thread t l
  rw [show (∑ u, count (Function.update thread t l u)) = _ from congrArg Finset.univ.sum moved,
    Finset.sum_update_of_mem (Finset.mem_univ t),
    ← Finset.sum_sdiff (Finset.subset_univ {t}), Finset.sum_singleton]
  omega

/-- A `pthread_barrier_t`: how many threads make a round, how often its wait has
been called, and for each round how many threads have returned from it and
whether one of them has been the serial one. -/
structure Barrier where
  count : Nat
  arrivals : Nat
  departures : Nat -> Nat
  serial : Nat -> Bool

namespace Barrier

/-- `pthread_barrier_init` -/
def init (count : Nat) : Barrier where
  count := count
  arrivals := 0
  departures := fun _ => 0
  serial := fun _ => false

/-- The call of `pthread_barrier_wait`, with the round that it belongs to. -/
def arrive (b : Barrier) : Barrier × Nat :=
  ({ b with arrivals := b.arrivals + 1 }, b.arrivals / b.count)

/-- All threads of the round have arrived, and there is a serial thread of each
round and not more than one. -/
def mayDepart (b : Barrier) (round : Nat) (serial : Bool) : Bool :=
  (round + 1) * b.count ≤ b.arrivals &&
    if serial then !b.serial round else b.serial round || b.departures round + 1 < b.count

/-- The return from `pthread_barrier_wait`, with PTHREAD_BARRIER_SERIAL_THREAD or with zero. -/
def depart (b : Barrier) (round : Nat) (serial : Bool) : Barrier :=
  { b with
    departures := Function.update b.departures round (b.departures round + 1)
    serial := Function.update b.serial round (b.serial round || serial) }

/-! ## A fixed set of threads -/

/-- How often a thread has returned from the barrier, and whether it waits there now. -/
structure Visit where
  departed : Nat
  waiting : Bool

def Visit.arrived (visit : Visit) : Nat := visit.departed + visit.waiting.toNat

/-- The barrier was initialised for these threads, and has seen what they have
done; `serialBy` says which thread was the serial one of a round. -/
structure Serves {Tid : Type} [Fintype Tid] (b : Barrier) (visit : Tid -> Visit)
    (serialBy : Nat -> Option Tid) : Prop where
  count : b.count = Fintype.card Tid
  arrivals : b.arrivals = ∑ t, (visit t).arrived
  close : forall t u, (visit t).departed ≤ (visit u).arrived
  departures : forall round,
    b.departures round = (Finset.univ.filter fun t => round < (visit t).departed).card
  serial : forall round, b.serial round = (serialBy round).isSome
  serial_departed : forall round t, serialBy round = some t -> round < (visit t).departed
  last_serial : forall round, (forall t, round < (visit t).departed) -> b.serial round = true

namespace Serves

variable {Tid : Type} [Fintype Tid] {b : Barrier} {visit : Tid -> Visit}
  {serialBy : Nat -> Option Tid} {t : Tid}

/-- Nobody has been here yet. -/
theorem initially [Nonempty Tid] :
    Serves (init (Fintype.card Tid)) (fun _ : Tid => ⟨0, false⟩) (fun _ => none) where
  count := rfl
  arrivals := by simp [init, Visit.arrived]
  close := fun _ _ => Nat.zero_le _
  departures := by simp [init]
  serial := fun _ => rfl
  serial_departed := nofun
  last_serial := by
    intro round all
    exact absurd (all (Classical.arbitrary Tid)) (Nat.not_lt_zero _)

/-- No thread is more than one round ahead. -/
theorem arrived_le (serves : Serves b visit serialBy) (here : (visit t).waiting = false) (u : Tid) :
    (visit u).arrived ≤ (visit t).departed + 1 := by
  have close := serves.close u t
  rw [Visit.arrived, here] at close
  have one := Bool.toNat_le (visit u).waiting
  rw [Visit.arrived]
  simp only [Bool.toNat_false] at close
  omega

/-- The arrivals of a round that all threads have at least come to. -/
theorem le_arrivals (serves : Serves b visit serialBy) {rounds : Nat}
    (all : forall u, rounds ≤ (visit u).arrived) : rounds * b.count ≤ b.arrivals := by
  rw [serves.count, serves.arrivals, Nat.mul_comm, ← Finset.card_univ,
    ← Finset.sum_const_nat fun _ _ => rfl]
  exact Finset.sum_le_sum fun u _ => all u

/-- A thread that arrives belongs to the round that it counts itself. -/
theorem round_eq (serves : Serves b visit serialBy) (here : (visit t).waiting = false) :
    b.arrive.2 = (visit t).departed := by
  have lower := serves.le_arrivals fun u => serves.close t u
  have upper : b.arrivals < ((visit t).departed + 1) * b.count := by
    rw [serves.count, serves.arrivals, Nat.mul_comm, ← Finset.card_univ,
      ← Finset.sum_const_nat fun _ _ => rfl]
    refine Finset.sum_lt_sum (fun u _ => serves.arrived_le here u) ⟨t, Finset.mem_univ t, ?_⟩
    rw [Visit.arrived, here]
    exact Nat.lt_succ_self _
  exact Nat.div_eq_of_lt_le lower upper

/-- All threads have come to a round that may be left. -/
theorem arrived_of_mayDepart (serves : Serves b visit serialBy) {serial : Bool}
    (may : b.mayDepart (visit t).departed serial = true) (u : Tid) :
    (visit t).departed + 1 ≤ (visit u).arrived := by
  by_contra behind
  -- Nobody has returned from the round, for `u` has not come to it.
  have most : forall v, (visit v).arrived ≤ (visit t).departed + 1 := by
    intro v
    have close := serves.close v u
    have one := Bool.toNat_le (visit v).waiting
    rw [Visit.arrived]
    omega
  have less : b.arrivals < ((visit t).departed + 1) * b.count := by
    rw [serves.count, serves.arrivals, Nat.mul_comm, ← Finset.card_univ,
      ← Finset.sum_const_nat fun _ _ => rfl]
    exact Finset.sum_lt_sum (fun v _ => most v) ⟨u, Finset.mem_univ u, Nat.lt_of_not_le behind⟩
  rw [mayDepart, Bool.and_eq_true, decide_eq_true_iff] at may
  exact absurd may.1 (Nat.not_le_of_lt less)

/-- A round to which all threads have come may be left. -/
theorem exists_mayDepart (serves : Serves b visit serialBy) {round : Nat}
    (all : forall u, round + 1 ≤ (visit u).arrived) :
    exists serial, b.mayDepart round serial = true := by
  have enough := serves.le_arrivals all
  cases had : b.serial round with
  | true => exact ⟨false, by simp [mayDepart, enough, had]⟩
  | false => exact ⟨true, by simp [mayDepart, enough, had]⟩

/-! ## What a call and a return do -/

theorem arrive [DecidableEq Tid] (serves : Serves b visit serialBy)
    (here : (visit t).waiting = false) :
    Serves b.arrive.1 (Function.update visit t ⟨(visit t).departed, true⟩) serialBy := by
  have departed : forall u, (Function.update visit t ⟨(visit t).departed, true⟩ u).departed =
      (visit u).departed := by
    intro u
    by_cases same : u = t
    · rw [same, Function.update_self]
    · rw [Function.update_of_ne same]
  have total := sum_update Visit.arrived visit t ⟨(visit t).departed, true⟩
  have one : Visit.arrived ⟨(visit t).departed, true⟩ = (visit t).arrived + 1 := by
    rw [Visit.arrived, Visit.arrived, here]
    rfl
  constructor
  case count => exact serves.count
  case arrivals =>
    rw [one, ← serves.arrivals] at total
    simp only [Barrier.arrive]
    omega
  case close =>
    intro u v
    rw [departed]
    have close := serves.close u v
    by_cases same : v = t
    · rw [same, Function.update_self, one]
      rw [same] at close
      exact Nat.le_succ_of_le close
    · rw [Function.update_of_ne same]
      exact close
  case departures =>
    intro round
    simp only [departed]
    exact serves.departures round
  case serial => exact serves.serial
  case serial_departed =>
    intro round u served
    rw [departed]
    exact serves.serial_departed round u served
  case last_serial =>
    intro round all
    simp only [departed] at all
    exact serves.last_serial round all

/-- Who was the serial thread, after one more return. -/
def serialAfter (serialBy : Nat -> Option Tid) (round : Nat) (t : Tid) (serial : Bool) :
    Nat -> Option Tid :=
  if serial then Function.update serialBy round (some t) else serialBy

omit [Fintype Tid] in
theorem serialAfter_of_ne {serialBy : Nat -> Option Tid} {round other : Nat} {t : Tid}
    {serial : Bool} (different : other ≠ round) :
    serialAfter serialBy round t serial other = serialBy other := by
  cases serial
  · rfl
  · exact Function.update_of_ne different _ _

/-- A round has no second serial thread. -/
theorem unserved (serves : Serves b visit serialBy) {round : Nat}
    (may : b.mayDepart round true = true) : serialBy round = none := by
  rw [mayDepart, Bool.and_eq_true, if_pos rfl, serves.serial] at may
  exact Option.isNone_iff_eq_none.mp (by simpa using may.2)

/-- The thread that leaves is the serial one if it is told so. -/
theorem serialAfter_self (serves : Serves b visit serialBy) {serial : Bool} :
    serialAfter serialBy (visit t).departed t serial (visit t).departed = some t <->
      serial = true := by
  cases serial with
  | true => simp [serialAfter]
  | false =>
      refine iff_of_false (fun served => ?_) nofun
      exact Nat.lt_irrefl _ (serves.serial_departed _ _ served)

/-- The others are serial if they were. -/
theorem serialAfter_other (serves : Serves b visit serialBy) {serial : Bool} {round other : Nat}
    (may : b.mayDepart round serial = true) {u : Tid} (different : u ≠ t) :
    serialAfter serialBy round t serial other = some u <-> serialBy other = some u := by
  by_cases same : other = round
  · cases serial with
    | true =>
        rw [serialAfter, if_pos rfl, same, Function.update_self, serves.unserved may]
        exact ⟨fun mine => absurd (Option.some.inj mine).symm different, nofun⟩
    | false => exact Iff.rfl
  · rw [serialAfter_of_ne same]

theorem depart [DecidableEq Tid] (serves : Serves b visit serialBy)
    (here : (visit t).waiting = true) {serial : Bool}
    (may : b.mayDepart (visit t).departed serial = true) :
    Serves (b.depart (visit t).departed serial)
      (Function.update visit t ⟨(visit t).departed + 1, false⟩)
      (serialAfter serialBy (visit t).departed t serial) := by
  have came := serves.arrived_of_mayDepart may
  set round := (visit t).departed with at_round
  have arrived : forall u, (Function.update visit t ⟨round + 1, false⟩ u).arrived =
      (visit u).arrived := by
    intro u
    by_cases same : u = t
    · rw [same, Function.update_self, Visit.arrived, Visit.arrived, here, ← at_round]
      rfl
    · rw [Function.update_of_ne same]
  -- The threads that are past a round are as before, but for the round that `t` leaves.
  have past : forall other u, other < (Function.update visit t ⟨round + 1, false⟩ u).departed <->
      other < (visit u).departed ∨ u = t ∧ other = round := by
    intro other u
    by_cases same : u = t
    · rw [same, Function.update_self, ← at_round]
      simp only [true_and]
      omega
    · rw [Function.update_of_ne same]
      simp only [same, false_and, or_false]
  rw [mayDepart, Bool.and_eq_true] at may
  constructor
  case count => exact serves.count
  case arrivals =>
    simp only [arrived]
    exact serves.arrivals
  case close =>
    intro u v
    rw [arrived]
    by_cases same : u = t
    · rw [same, Function.update_self]
      exact came v
    · rw [Function.update_of_ne same]
      exact serves.close u v
  case departures =>
    intro other
    simp only [past, Barrier.depart]
    by_cases same : other = round
    · have outside : t ∉ Finset.univ.filter fun u => round < (visit u).departed := by
        simp [← at_round]
      have insert_t : (Finset.univ.filter fun u =>
          round < (visit u).departed ∨ u = t ∧ round = round) =
          insert t (Finset.univ.filter fun u => round < (visit u).departed) := by
        ext u
        simp [or_comm]
      rw [same, Function.update_self, serves.departures, ← Finset.card_insert_of_notMem outside,
        ← insert_t]
    · rw [Function.update_of_ne same, serves.departures]
      simp only [same, and_false, or_false]
  case serial =>
    intro other
    cases serial with
    | true =>
        by_cases same : other = round
        · simp [same, Barrier.depart, serialAfter]
        · simp [same, Barrier.depart, serialAfter, serves.serial]
    | false =>
        simp only [Barrier.depart, Bool.or_false, Function.update_eq_self, serialAfter]
        exact serves.serial other
  case serial_departed =>
    intro other u served
    rw [past]
    cases serial with
    | true =>
        simp only [serialAfter, if_true] at served
        by_cases same : other = round
        · rw [same, Function.update_self] at served
          exact Or.inr ⟨(Option.some.inj served).symm, same⟩
        · rw [Function.update_of_ne same] at served
          exact Or.inl (serves.serial_departed other u served)
    | false => exact Or.inl (serves.serial_departed other u served)
  case last_serial =>
    intro other all
    simp only [past] at all
    by_cases same : other = round
    · rw [same] at all ⊢
      simp only [Barrier.depart, Function.update_self]
      have others : Finset.univ.erase t ⊆ Finset.univ.filter fun u => round < (visit u).departed := by
        intro u member
        have passed := all u
        simp only [Finset.mem_erase.mp member |>.1, false_and, or_false] at passed
        exact Finset.mem_filter.mpr ⟨Finset.mem_univ u, passed⟩
      have many := Finset.card_le_card others
      rw [Finset.card_erase_of_mem (Finset.mem_univ t), Finset.card_univ, ← serves.departures,
        ← serves.count] at many
      cases serial with
      | true => exact Bool.or_true _
      | false =>
          have last := may.2
          simp only [Bool.false_eq_true, if_false, Bool.or_eq_true, decide_eq_true_iff] at last
          rcases last with had | more
          · rw [had]
            rfl
          · exact absurd many (by omega)
    · have before : forall u, other < (visit u).departed := by
        intro u
        simpa only [same, and_false, or_false] using all u
      simp only [Barrier.depart, Function.update_of_ne same]
      exact serves.last_serial other before

end Serves

end Barrier

end Concurrency
end Autolock
