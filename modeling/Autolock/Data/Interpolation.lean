import Mathlib.Algebra.Order.Field.Basic
import Mathlib.Algebra.Order.Floor.Semiring
import Mathlib.Tactic.Linarith
import Mathlib.Tactic.Ring

namespace Autolock
namespace Data

/-!
# Interpolation between the values of a sequence

A sequence is continued to the numbers between the indices: each is weighted by
how close it is to the two indices around it.
-/

section interpolation

variable {K : Type} [Field K] [LinearOrder K] [IsStrictOrderedRing K]

/-- A weighted average of two values lies between them. -/
theorem average_mem {a b w : K} (ordered : a ≤ b) (low : 0 ≤ w) (high : w ≤ 1) :
    a ≤ a * (1 - w) + b * w ∧ a * (1 - w) + b * w ≤ b := by
  constructor <;> nlinarith

variable [FloorSemiring K]
variable {f : Nat -> K} {x : K}

def interpolate (f : Nat -> K) (x : K) : K :=
  f ⌊x⌋₊ * (1 - (x - ⌊x⌋₊)) + f (⌊x⌋₊ + 1) * (x - ⌊x⌋₊)

theorem interpolate_natCast (f : Nat -> K) (n : Nat) : interpolate f n = f n := by
  rw [interpolate, Nat.floor_natCast]
  ring

theorem interpolate_middle (f : Nat -> K) (n : Nat) :
    interpolate f (n + 1 / 2) = (f (n + 1) + f n) / 2 := by
  have floor : ⌊(n + 1 / 2 : K)⌋₊ = n := by
    rw [Nat.floor_eq_iff (by positivity)]
    constructor <;> norm_num
  rw [interpolate, floor]
  ring

theorem interpolate_mem (increasing : Monotone f) (nonneg : 0 ≤ x) :
    f ⌊x⌋₊ ≤ interpolate f x ∧ interpolate f x ≤ f (⌊x⌋₊ + 1) := by
  have below : (⌊x⌋₊ : K) ≤ x := Nat.floor_le nonneg
  have above : x < ⌊x⌋₊ + 1 := Nat.lt_floor_add_one x
  exact average_mem (increasing (Nat.le_succ _)) (by linarith) (by linarith)

/-- Between two indices the interpolation is linear; an index in between separates
other numbers. -/
theorem interpolate_monotoneOn (increasing : Monotone f) :
    MonotoneOn (interpolate f) (Set.Ici 0) := by
  intro x nonneg y _ ordered
  have floors : ⌊x⌋₊ ≤ ⌊y⌋₊ := Nat.floor_mono ordered
  rcases Nat.eq_or_lt_of_le floors with same | less
  · have step : f ⌊y⌋₊ ≤ f (⌊y⌋₊ + 1) := increasing (Nat.le_succ _)
    rw [interpolate, interpolate, same]
    nlinarith
  · calc
      interpolate f x ≤ f (⌊x⌋₊ + 1) := (interpolate_mem increasing nonneg).2
      _ ≤ f ⌊y⌋₊ := increasing less
      _ ≤ interpolate f y := (interpolate_mem increasing (le_trans nonneg ordered)).1

end interpolation

end Data
end Autolock
