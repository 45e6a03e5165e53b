import Autolock.Concurrency.WrappingCounter
import Mathlib.Data.Set.Card
import Mathlib.Data.UInt

namespace Autolock
namespace Concurrency

/-!
# How many threads are at some place

The number of threads whose state has a property changes by at most one when
one thread moves.  A word that each of them increments when it comes and
decrements when it leaves shows this number, as long as the number fits.
-/

/-- The threads whose state has a property. -/
def population {Tid Local : Type} (property : Local -> Prop) (thread : Tid -> Local) : Set Tid :=
  { t | property (thread t) }

variable {Tid Local : Type} [DecidableEq Tid] {property : Local -> Prop} {thread : Tid -> Local}
  {t : Tid} {l : Local}

theorem population_stay (same : property l <-> property (thread t)) :
    population property (Function.update thread t l) = population property thread := by
  ext u
  by_cases itself : u = t
  · subst itself
    simpa [population] using same
  · simp [population, itself]

theorem population_enter (now : property l) :
    population property (Function.update thread t l) = insert t (population property thread) := by
  ext u
  by_cases itself : u = t
  · subst itself
    simpa [population] using now
  · simp [population, itself]

theorem encard_population_enter (before : ¬property (thread t)) (now : property l) :
    (population property (Function.update thread t l)).encard =
      (population property thread).encard + 1 := by
  rw [population_enter now]
  exact Set.encard_insert_of_notMem before

/-- A thread that leaves was one of those counted. -/
theorem encard_population_leave (before : property (thread t)) (now : ¬property l) :
    (population property (Function.update thread t l)).encard + 1 =
      (population property thread).encard := by
  have back : ¬property (Function.update thread t l t) := by
    rwa [Function.update_self]
  have entered := encard_population_enter back before
  rw [Function.update_idem, Function.update_eq_self] at entered
  exact entered.symm

omit [DecidableEq Tid] in
/-- No more threads are at a place than there are. -/
theorem encard_le_of_card [Fintype Tid] {bound : Nat} (few : Fintype.card Tid ≤ bound)
    (threads : Set Tid) : threads.encard ≤ bound :=
  calc threads.encard ≤ ENat.card Tid := Set.encard_le_card
    _ = Fintype.card Tid := ENat.card_eq_coe_fintype_card
    _ ≤ bound := by exact_mod_cast few

omit [DecidableEq Tid] in
theorem encard_lt_of_card [Fintype Tid] {bound : Nat} (few : Fintype.card Tid < bound)
    (threads : Set Tid) : threads.encard < bound :=
  (encard_le_of_card (Nat.le_refl _) threads).trans_lt (by exact_mod_cast few)

/-! ## A counter -/

/-- The word shows how many threads have the property. -/
def Counts (counter : UInt32) (property : Local -> Prop) (thread : Tid -> Local) : Prop :=
  (population property thread).encard = counter.toNat

theorem Counts.stay {counter : UInt32} (counts : Counts counter property thread)
    (same : property l <-> property (thread t)) :
    Counts counter property (Function.update thread t l) := by
  rw [Counts, population_stay same]
  exact counts

theorem Counts.enter {counter : UInt32} (counts : Counts counter property thread)
    (before : ¬property (thread t)) (now : property l)
    (fits : (population property (Function.update thread t l)).encard < (2 ^ 32 : Nat)) :
    Counts (counter + 1) property (Function.update thread t l) := by
  have more := encard_population_enter before now
  rw [counts] at more
  rw [more] at fits
  have bound : counter.toNat + 1 < 2 ^ 32 := by exact_mod_cast fits
  rw [Counts, more, UInt32.toNat_add, UInt32.toNat_one, Nat.mod_eq_of_lt bound]
  rfl

theorem Counts.leave {counter : UInt32} (counts : Counts counter property thread)
    (before : property (thread t)) (now : ¬property l) :
    Counts (counter - 1) property (Function.update thread t l) := by
  have fewer := encard_population_leave before now
  rw [counts] at fewer
  have nonzero : counter ≠ 0 := by
    rintro rfl
    exact absurd fewer (by simp)
  have back := toNat_sub_one nonzero
  apply ENat.add_left_injective_of_ne_top ENat.one_ne_top
  show _ + 1 = _ + 1
  rw [fewer, ← back]
  rfl

omit [DecidableEq Tid] in
/-- A counter that shows zero counts nobody. -/
theorem Counts.zero (counts : Counts 0 property thread) (u : Tid) : ¬property (thread u) := by
  intro present
  have nobody : population property thread = ∅ := Set.encard_eq_zero.mp counts
  exact Set.eq_empty_iff_forall_notMem.mp nobody u present

end Concurrency
end Autolock
