import Mathlib.Algebra.Group.Nat.Defs
import Mathlib.Order.Bounds.Basic

namespace Autolock
namespace Data

/-!
# The highest bit of a word, and powers of two

A word is smeared when every bit below its highest one is set.  Shifting by
doubling distances and combining with the word itself smears it: after each
round a bit is set if one of twice as many bits from it on was.
-/

section smear

variable {w : Nat} {x y : BitVec w}

/-- A bit of `y` is set if one of the next `n` bits of `x` is, its own included. -/
def SmearedBy (n : Nat) (x y : BitVec w) : Prop :=
  forall i, y.getLsbD i = true <-> exists j, j < n ∧ x.getLsbD (i + j) = true

theorem smearedBy_one (x : BitVec w) : SmearedBy 1 x x := by
  intro i
  constructor
  · exact fun set => ⟨0, Nat.one_pos, set⟩
  · rintro ⟨j, less, set⟩
    rwa [Nat.lt_one_iff.mp less] at set

theorem SmearedBy.double {n : Nat} (smeared : SmearedBy n x y) :
    SmearedBy (n + n) x (y ||| y >>> n) := by
  intro i
  rw [BitVec.getLsbD_or, BitVec.getLsbD_ushiftRight, Bool.or_eq_true, smeared, smeared]
  constructor
  · rintro (⟨j, less, set⟩ | ⟨j, less, set⟩)
    · exact ⟨j, Nat.lt_add_right n less, set⟩
    · refine ⟨n + j, Nat.add_lt_add_left less n, ?_⟩
      rwa [← Nat.add_assoc, Nat.add_comm i n]
  · rintro ⟨j, less, set⟩
    by_cases near : j < n
    · exact Or.inl ⟨j, near, set⟩
    · refine Or.inr ⟨j - n, by omega, ?_⟩
      have same : n + i + (j - n) = i + j := by omega
      rwa [same]

/-- All the bits up to the highest one are set. -/
theorem SmearedBy.toNat_eq {n : Nat} (smeared : SmearedBy n x y) (wide : w ≤ n) (nonzero : x ≠ 0) :
    y.toNat = 2 ^ (x.toNat.log2 + 1) - 1 := by
  have positive : x.toNat ≠ 0 := fun zero => nonzero (BitVec.eq_of_toNat_eq zero)
  apply Nat.eq_of_testBit_eq
  intro i
  rw [Nat.testBit_two_pow_sub_one, Bool.eq_iff_iff, decide_eq_true_iff]
  refine (smeared i).trans ⟨?_, fun less => ?_⟩
  · rintro ⟨j, -, set⟩
    by_contra above
    have high : x.toNat < 2 ^ (i + j) :=
      Nat.lt_of_lt_of_le Nat.lt_log2_self (Nat.pow_le_pow_right Nat.two_pos (by omega))
    cases set.symm.trans (Nat.testBit_lt_two_pow high)
  · have set : x.toNat.testBit x.toNat.log2 = true := Nat.testBit_log2 positive
    have bounded : x.toNat.log2 < w := (Nat.log2_lt positive).mpr x.isLt
    refine ⟨x.toNat.log2 - i, by omega, ?_⟩
    have same : i + (x.toNat.log2 - i) = x.toNat.log2 := by omega
    rw [same]
    exact set

theorem SmearedBy.zero {n : Nat} (smeared : SmearedBy n (0 : BitVec w) y) : y = 0 := by
  apply BitVec.eq_of_getLsbD_eq
  intro i _
  have clear : y.getLsbD i ≠ true := by
    intro set
    rcases (smeared i).mp set with ⟨j, -, impossible⟩
    cases impossible.symm.trans BitVec.getLsbD_zero
  rw [Bool.eq_false_iff.mpr clear]
  exact BitVec.getLsbD_zero.symm

/-- What the leading zeros leave is the index of the highest bit. -/
theorem toNat_clz (nonzero : x ≠ 0) : x.clz.toNat = w - 1 - x.toNat.log2 ∧ x.toNat.log2 < w := by
  have positive : x.toNat ≠ 0 := fun zero => nonzero (BitVec.eq_of_toNat_eq zero)
  have bounded : x.toNat.log2 < w := (Nat.log2_lt positive).mpr x.isLt
  have lower := (Nat.le_log2 positive).mpr
    (BitVec.two_pow_sub_clz_le_toNat_of_ne_zero (by omega) nonzero)
  have upper := (Nat.log2_lt positive).mpr (BitVec.toNat_lt_two_pow_sub_clz (x := x))
  omega

end smear

/-! ## The neighbouring powers of two -/

section powers

def powersOfTwo : Set Nat :=
  Set.range fun k => 2 ^ k

theorem isLeast_powerOfTwo {n : Nat} (large : 1 < n) :
    IsLeast { p | p ∈ powersOfTwo ∧ n ≤ p } (2 ^ ((n - 1).log2 + 1)) := by
  have positive : n - 1 ≠ 0 := by omega
  have below : n - 1 < 2 ^ ((n - 1).log2 + 1) := Nat.lt_log2_self
  refine ⟨⟨⟨_, rfl⟩, by omega⟩, ?_⟩
  rintro _ ⟨⟨k, rfl⟩, above⟩
  dsimp only at above
  have high : (n - 1).log2 < k := (Nat.log2_lt positive).mpr (by omega)
  exact Nat.pow_le_pow_right Nat.two_pos high

theorem isGreatest_powerOfTwo {n : Nat} (positive : n ≠ 0) :
    IsGreatest { p | p ∈ powersOfTwo ∧ p ≤ n } (2 ^ n.log2) := by
  refine ⟨⟨⟨_, rfl⟩, Nat.log2_self_le positive⟩, ?_⟩
  rintro _ ⟨⟨k, rfl⟩, below⟩
  exact Nat.pow_le_pow_right Nat.two_pos ((Nat.le_log2 positive).mpr below)

end powers

end Data
end Autolock
