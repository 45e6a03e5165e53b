import Mathlib.Data.Int.GCD
import Mathlib.Data.Nat.ModEq
import Mathlib.Logic.Function.Basic

namespace Autolock
namespace Concurrency

/-!
# Counters that wrap

A 32-bit counter that is only ever incremented shows an unbounded number
modulo `2 ^ 32`.  Two such numbers that lie within one period of each other
are equal as soon as their displayed values are.

The numbers may also be announced one after the other in the slots of an
array, each in its own slot.  A slot then shows the last number announced in
it, and a waiter for a later number takes it for its own only if nothing was
announced in that slot for a whole period.

A counter that advances in equal steps meets a target sooner or later exactly
if what the step and the period have in common divides it.
-/

/-- What a 32-bit counter shows of the number it stands for. -/
def wrap (n : Nat) : UInt32 := UInt32.ofNat n

@[simp] theorem wrap_zero : wrap 0 = 0 := rfl

@[simp] theorem wrap_toNat (n : Nat) : (wrap n).toNat = n % 2 ^ 32 := rfl

@[simp] theorem wrap_succ (n : Nat) : wrap (n + 1) = wrap n + 1 := by
  apply UInt32.toNat_inj.mp
  simp [wrap]

theorem wrap_eq_iff {a b : Nat} : wrap a = wrap b <-> a ≡ b [MOD 2 ^ 32] := by
  rw [← UInt32.toNat_inj, wrap_toNat, wrap_toNat]
  rfl

/-- Numbers less than a period apart are told apart by what the counter shows. -/
theorem wrap_injective {a b : Nat} (ordered : a ≤ b) (close : b < a + 2 ^ 32)
    (equal : wrap a = wrap b) : a = b := by
  have congruent := (Nat.modEq_iff_dvd' ordered).mp (wrap_eq_iff.mp equal)
  have zero := Nat.eq_zero_of_dvd_of_lt congruent (by omega)
  omega

/-- Of two numbers that show the same, one that is less than a period ahead is not ahead. -/
theorem le_of_wrap_eq {a b : Nat} (close : a < b + 2 ^ 32) (equal : wrap a = wrap b) : a ≤ b := by
  by_contra ahead
  have same := wrap_injective (Nat.le_of_not_le ahead) close equal.symm
  omega

theorem wrap_add (a b : Nat) : wrap (a + b) = wrap a + wrap b := UInt32.ofNat_add a b

/-- When the difference of two counters is the distance of what they stand for. -/
theorem wrap_sub_toNat_eq_iff {a b distance : Nat} :
    (wrap a - wrap b).toNat = distance <->
      distance < 2 ^ 32 ∧ a ≡ b + distance [MOD 2 ^ 32] := by
  have shown : distance < 2 ^ 32 -> ((wrap a - wrap b).toNat = distance <->
      wrap a - wrap b = wrap distance) := by
    intro small
    rw [← UInt32.toNat_inj, wrap_toNat, Nat.mod_eq_of_lt small]
  have moved : wrap a - wrap b = wrap distance <-> a ≡ b + distance [MOD 2 ^ 32] := by
    rw [← wrap_eq_iff, wrap_add, UInt32.add_comm]
    constructor
    · intro same
      rw [← same, UInt32.sub_add_cancel]
    · intro same
      rw [same, UInt32.add_sub_cancel]
  constructor
  · intro same
    have small : distance < 2 ^ 32 := same ▸ UInt32.toNat_lt _
    exact ⟨small, moved.mp ((shown small).mp same)⟩
  · rintro ⟨small, congruent⟩
    exact (shown small).mpr (moved.mpr congruent)

/-- A counter that does not show zero can be decremented. -/
theorem toNat_sub_one {counter : UInt32} (nonzero : counter ≠ 0) :
    (counter - 1).toNat + 1 = counter.toNat := by
  have positive : 0 < counter.toNat :=
    Nat.pos_of_ne_zero fun zero => nonzero (UInt32.toNat_inj.mp zero)
  have some : 1 ≤ counter := UInt32.le_iff_toNat_le.mpr positive
  rw [UInt32.toNat_sub_of_le _ _ some]
  exact Nat.sub_add_cancel some

/-! ## Targets met by a counter that advances in equal steps -/

theorem exists_mul_modEq {step target period : Nat} (positive : 0 < period)
    (divides : step.gcd period ∣ target) : exists k, k * step ≡ target [MOD period] := by
  rcases divides with ⟨times, rfl⟩
  rcases (Nat.gcd_le_right step positive).lt_or_eq with less | whole
  · rcases Nat.exists_mul_mod_eq_gcd less with ⟨k, -, reaches⟩
    have once : step * k ≡ step.gcd period [MOD period] := by
      rw [Nat.ModEq, reaches, Nat.mod_eq_of_lt less]
    refine ⟨k * times, ?_⟩
    rw [Nat.mul_right_comm, Nat.mul_comm k]
    exact once.mul_right times
  · refine ⟨0, ?_⟩
    rw [whole, Nat.zero_mul]
    exact (Nat.modEq_zero_iff_dvd.mpr (Nat.dvd_mul_right period times)).symm

theorem gcd_dvd_of_modEq {step target period k : Nat}
    (reaches : k * step ≡ target [MOD period]) : step.gcd period ∣ target :=
  (reaches.dvd_iff (Nat.gcd_dvd_right step period)).mp
    (Nat.dvd_mul_left_of_dvd (Nat.gcd_dvd_left step period) k)

/-! ## Numbers announced in slots -/

section announced

variable {Slot : Type} {slot : Nat -> Slot} {turn : Nat} {shown : Slot -> UInt32}

/-- Every slot shows a number up to `turn` after which none was announced in it. -/
def Announced (slot : Nat -> Slot) (turn : Nat) (shown : Slot -> UInt32) : Prop :=
  forall k, exists m, m ≤ turn ∧ shown k = wrap m ∧ forall m', m < m' -> m' ≤ turn -> slot m' ≠ k

theorem announced_zero : Announced slot 0 fun _ => 0 :=
  fun _ => ⟨0, Nat.le_refl 0, rfl, fun _ later upTo => absurd later (Nat.not_lt.mpr upTo)⟩

theorem Announced.advance [DecidableEq Slot] (announced : Announced slot turn shown) :
    Announced slot (turn + 1) (Function.update shown (slot (turn + 1)) (wrap (turn + 1))) := by
  intro k
  by_cases here : k = slot (turn + 1)
  · subst here
    refine ⟨turn + 1, Nat.le_refl _, Function.update_self .., ?_⟩
    intro m' later upTo
    omega
  · rcases announced k with ⟨m, past, shows, last⟩
    refine ⟨m, Nat.le_succ_of_le past, by rw [Function.update_of_ne here, shows], ?_⟩
    intro m' later upTo
    rcases Nat.lt_or_eq_of_le upTo with before | now
    · exact last m' later (Nat.le_of_lt_succ before)
    · rw [now]
      exact Ne.symm here

/-- What is shown in the slot of `j` is `j` only when `j` has been announced,
provided that something was announced there less than a period before `j`. -/
theorem Announced.le_of_shown {j : Nat} (announced : Announced slot turn shown)
    (overwritten : turn < j -> 2 ^ 32 ≤ j ->
      exists m, m ≤ turn ∧ j < m + 2 ^ 32 ∧ slot m = slot j)
    (shows : shown (slot j) = wrap j) : j ≤ turn := by
  by_contra later
  rcases announced (slot j) with ⟨m, past, shows', last⟩
  have stale : m + 2 ^ 32 ≤ j := by
    by_contra close
    have := le_of_wrap_eq (Nat.lt_of_not_le close) (shows.symm.trans shows')
    omega
  rcases overwritten (by omega) (by omega) with ⟨m', past', close, same⟩
  exact last m' (by omega) past' same

end announced

end Concurrency
end Autolock
