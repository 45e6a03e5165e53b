import Autolock.Concurrency.Barrier
import Autolock.Concurrency.LockClient
import Autolock.Concurrency.WrappingCounter
import Autolock.Runner.TotalWork
import Mathlib.Tactic.Ring

namespace Autolock
namespace Runner

open Concurrency

/-!
# The benchmark of work per thread

Every thread takes the lock a given number of times and adds its chunk to the
counter that all share.  What all threads have still to add, together with the
counter, is the same in all states: the counter ends at the product of the
threads, the rounds and the chunk, modulo its period.
-/

/-- The parameters of `I_bench_per_thread_work`. -/
structure PerThreadWork where
  outerIter : UInt32
  csIter : UInt32
  extraIter : UInt32
  deriving DecidableEq, Repr

/-- The next step of a thread, with the iterations that are left of its loops. -/
inductive PerThreadWorkPc where
  | lock (outer : UInt32)
  | csLoad (outer i : UInt32)
  | csStore (outer i : UInt32) (value : UInt64)
  | unlock (outer : UInt32)
  | extraWork (outer i : UInt32)
  | left
  deriving DecidableEq, Repr

namespace PerThreadWork

/-- The condition of the loop in the critical section. -/
def csLoop (outer i : UInt32) : PerThreadWorkPc :=
  if i = 0 then .unlock outer else .csLoad outer i

/-- The condition of the outer loop. -/
def outerLoop (outer : UInt32) : PerThreadWorkPc :=
  if outer = 0 then .left else .lock outer

/-- The condition of the loop outside the critical section. -/
def extraLoop (outer i : UInt32) : PerThreadWorkPc :=
  if i = 0 then outerLoop (outer - 1) else .extraWork outer i

/-- `I_bench_per_thread_work` after the barrier.  The counter of the extra work
stays in the thread. -/
def client (Tid : Type) (p : PerThreadWork) : LockClient Tid UInt64 PerThreadWorkPc Unit Unit where
  intent
    | .lock outer => .lock (csLoop outer p.csIter) ()
    | .unlock outer => .unlock (extraLoop outer p.extraIter) ()
    | _ => .compute
  compute := fun _ _ globalState pc =>
    match pc with
    | .csLoad outer i => some (globalState, .csStore outer i globalState, ())
    | .csStore outer i value => some (value + 1, csLoop outer (i - 1), ())
    | .extraWork outer i => some (globalState, extraLoop outer (i - 1), ())
    | _ => none

/-- The outer loop is entered without a test: `GURANTEED(outer_iter)`. -/
def start (p : PerThreadWork) : PerThreadWorkPc := .lock p.outerIter

/-! ## Where a thread is -/

/-- The thread has the lock. -/
def Holds : PerThreadWorkPc -> Prop
  | .csLoad _ _ | .csStore _ _ _ | .unlock _ => True
  | _ => False

/-- What the counter and the loops are for a thread at some place. -/
def At (n : UInt64) : PerThreadWorkPc -> Prop
  | .lock outer | .unlock outer => outer ≠ 0
  | .csLoad outer i | .extraWork outer i => outer ≠ 0 ∧ i ≠ 0
  | .csStore outer i value => outer ≠ 0 ∧ i ≠ 0 ∧ value = n
  | .left => True

/-- How often the thread will still add one. -/
def remaining (p : PerThreadWork) : PerThreadWorkPc -> Nat
  | .lock outer => outer.toNat * p.csIter.toNat
  | .csLoad outer i | .csStore outer i _ => (outer.toNat - 1) * p.csIter.toNat + i.toNat
  | .unlock outer | .extraWork outer _ => (outer.toNat - 1) * p.csIter.toNat
  | .left => 0

variable {p : PerThreadWork} {n n' : UInt64} {pc : PerThreadWorkPc} {outer i : UInt32}

theorem at_csLoop (rounds : outer ≠ 0) : At n (csLoop outer i) := by
  unfold csLoop
  split
  · exact rounds
  · next nonzero => exact ⟨rounds, nonzero⟩

theorem holds_csLoop : Holds (csLoop outer i) := by
  unfold csLoop
  split <;> trivial

theorem remaining_csLoop :
    p.remaining (csLoop outer i) = (outer.toNat - 1) * p.csIter.toNat + i.toNat := by
  unfold csLoop
  split
  · next zero =>
      rw [zero]
      rfl
  · rfl

theorem at_extraLoop (rounds : outer ≠ 0) : At n (extraLoop outer i) := by
  unfold extraLoop outerLoop
  split
  · split
    · trivial
    · next more => exact more
  · next nonzero => exact ⟨rounds, nonzero⟩

theorem not_holds_extraLoop : ¬Holds (extraLoop outer i) := by
  unfold extraLoop outerLoop
  repeat' split
  all_goals exact id

theorem remaining_extraLoop (rounds : outer ≠ 0) :
    p.remaining (extraLoop outer i) = (outer.toNat - 1) * p.csIter.toNat := by
  have fewer : (outer - 1).toNat = outer.toNat - 1 := Nat.eq_sub_of_add_eq (toNat_sub_one rounds)
  unfold extraLoop outerLoop
  split
  · split
    · next last =>
        rw [← fewer, last]
        exact (Nat.zero_mul _).symm
    · rw [remaining, fewer]
  · rfl

/-- To a thread without the lock the counter means nothing. -/
theorem At.of_not_holds (place : At n pc) (idle : ¬Holds pc) : At n' pc := by
  cases pc
  case csStore => exact absurd trivial idle
  all_goals exact place

/-! ## All interleavings -/

variable {Tid : Type} [DecidableEq Tid]

omit [DecidableEq Tid] in
theorem brackets : (p.client Tid).Brackets Holds where
  lock := by
    intro pc pc' event intends
    cases pc <;> cases intends
    exact ⟨id, holds_csLoop⟩
  unlock := by
    intro pc pc' event intends
    cases pc <;> cases intends
    exact ⟨trivial, not_holds_extraLoop⟩
  compute := by
    intro t choice n pc n' pc' event intends computed
    cases pc <;> cases intends <;> cases computed
    case csLoad => exact Iff.rfl
    case csStore => exact iff_of_true holds_csLoop trivial
    case extraWork => exact iff_of_false not_holds_extraLoop id

variable [Fintype Tid]

/-- The counter and what is still to come. -/
structure Inv (p : PerThreadWork)
    (s : Machine Tid (WithLock (Option Tid) UInt64) PerThreadWorkPc) : Prop where
  excludes : LockClient.Excludes Holds s
  places : forall t, At s.shared.data (s.thread t)
  total : s.shared.data + UInt64.ofNat (∑ t, p.remaining (s.thread t)) =
    UInt64.ofNat (Fintype.card Tid * (p.outerIter.toNat * p.csIter.toNat))

variable {s s' : Machine Tid (WithLock (Option Tid) UInt64) PerThreadWorkPc} {t : Tid}

omit [DecidableEq Tid] in
theorem inv_start (rounds : p.outerIter ≠ 0) : Inv p (⟨⟨none, 0⟩, fun _ : Tid => p.start⟩ :
    Machine Tid (WithLock (Option Tid) UInt64) PerThreadWorkPc) where
  excludes := fun _ => ⟨nofun, nofun⟩
  places := fun _ => rounds
  total := by
    have all : (∑ _t : Tid, p.remaining p.start) = Finset.univ.card * p.remaining p.start :=
      Finset.sum_const_nat fun _ _ => rfl
    rw [Finset.card_univ] at all
    exact (UInt64.zero_add _).trans (congrArg UInt64.ofNat all)

/-- A step that moves what remains into the counter. -/
theorem Inv.update (inv : Inv p s) {holder : Option Tid} {pc : PerThreadWorkPc}
    (excludes : LockClient.Excludes Holds (⟨⟨holder, n⟩, Function.update s.thread t pc⟩ :
      Machine Tid (WithLock (Option Tid) UInt64) PerThreadWorkPc))
    (here : At n pc) (there : forall u, u ≠ t -> At n (s.thread u))
    (kept : n + UInt64.ofNat (p.remaining pc) =
      s.shared.data + UInt64.ofNat (p.remaining (s.thread t))) :
    Inv p ⟨⟨holder, n⟩, Function.update s.thread t pc⟩ where
  excludes := excludes
  places := (Function.forall_update_iff s.thread fun _ pc => At n pc).mpr ⟨here, there⟩
  total := by
    have sum := congrArg UInt64.ofNat (sum_update p.remaining s.thread t pc)
    rw [UInt64.ofNat_add, UInt64.ofNat_add] at sum
    rw [← inv.total]
    show n + UInt64.ofNat (∑ u, p.remaining (Function.update s.thread t pc u)) = _
    generalize UInt64.ofNat (∑ u, p.remaining (Function.update s.thread t pc u)) = after at sum ⊢
    generalize UInt64.ofNat (∑ u, p.remaining (s.thread u)) = before at sum ⊢
    grind

theorem Inv.moves (inv : Inv p s) {event : Unit} (moves : (p.client Tid).Moves s t event s') :
    Inv p s' := by
  have excludes := brackets.moves inv.excludes moves
  have place := inv.places t
  -- If the thread has the lock, the others do not see what it does to the counter.
  have others : forall {n : UInt64}, Holds (s.thread t) -> forall u, u ≠ t -> At n (s.thread u) := by
    intro n holds u other
    refine (inv.places u).of_not_holds fun both => other ?_
    have first := (inv.excludes t).mp holds
    have second := (inv.excludes u).mp both
    rw [first] at second
    exact (Option.some.inj second).symm
  have unmoved : forall u, u ≠ t -> At s.shared.data (s.thread u) := fun u _ => inv.places u
  cases moves with
  | lock pc intends free =>
      generalize old : s.thread t = pc₀ at intends place
      cases pc₀ <;> cases intends
      case lock outer =>
        refine inv.update excludes (at_csLoop place) unmoved ?_
        have positive : outer.toNat = outer.toNat - 1 + 1 := by
          rw [Nat.sub_add_cancel (Nat.pos_of_ne_zero fun zero => place (UInt32.toNat_inj.mp zero))]
        rw [remaining_csLoop, old, remaining, ← Nat.succ_mul, Nat.succ_eq_add_one, ← positive]
  | unlock pc intends =>
      generalize old : s.thread t = pc₀ at intends place
      cases pc₀ <;> cases intends
      case unlock outer =>
        refine inv.update excludes (at_extraLoop place) unmoved ?_
        rw [remaining_extraLoop place, old, remaining]
  | compute choice n pc intends computed =>
      generalize old : s.thread t = pc₀ at intends place computed others
      cases pc₀ <;> cases intends <;> cases computed
      case compute.csLoad.refl.refl outer i =>
        refine inv.update excludes ⟨place.1, place.2, rfl⟩ unmoved ?_
        rw [old, remaining, remaining]
      case compute.csStore.refl.refl outer i value =>
        rcases place with ⟨rounds, nonzero, rfl⟩
        refine inv.update excludes (at_csLoop rounds) (others trivial) ?_
        rw [remaining_csLoop, old, remaining, ← toNat_sub_one nonzero, ← Nat.add_assoc,
          UInt64.ofNat_add _ 1, UInt64.add_assoc, UInt64.add_comm 1]
        rfl
      case compute.extraWork.refl.refl outer i =>
        refine inv.update excludes (at_extraLoop place.1) unmoved ?_
        rw [remaining_extraLoop place.1, old, remaining]

theorem inv_of_run (rounds : p.outerIter ≠ 0) {trace : List (Tid × Unit)}
    (run : ((p.client Tid).overMutex.system
      (LockClient.startsOver 0 fun _ => p.start)).Run TransitionSystem.unguarded trace s) :
    Inv p s := by
  refine run.invariant (fun _ => Inv p) ?_ ?_
  · rintro s rfl
    exact inv_start rounds
  · intro _ s label s' inv moved _
    exact inv.moves (LockClient.moves_of_next moved)

omit [DecidableEq Tid] in
/-- When all threads have returned, the counter is what the runner expects. -/
theorem Inv.expected (inv : Inv p s) {numThreads : UInt32}
    (threads : numThreads.toNat = Fintype.card Tid) (left : forall t, s.thread t = .left) :
    s.shared.data = getExpectedCount numThreads p.outerIter p.csIter .perThreadWork := by
  have nothing : (∑ t, p.remaining (s.thread t)) = 0 :=
    Finset.sum_eq_zero fun t _ => by rw [left t]; rfl
  have total := inv.total
  rw [nothing, ← threads, UInt64.ofNat_mul, UInt64.ofNat_mul, ← UInt64.mul_assoc,
    UInt64.ofNat_uInt32ToNat, UInt64.ofNat_uInt32ToNat, UInt64.ofNat_uInt32ToNat] at total
  rw [getExpectedCount, ← total]
  exact (UInt64.add_zero _).symm

end PerThreadWork

end Runner
end Autolock
