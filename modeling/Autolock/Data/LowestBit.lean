import Mathlib.Logic.Basic

namespace Autolock
namespace Data

/-!
# The lowest bit of a word

The trailing zeros of a word other than 0 are the index of its lowest bit, and
`x & -x` leaves nothing else of it.
-/

section lowestBit

variable {w : Nat} {x : BitVec w}

theorem ctz_toNat_eq {k : Nat} (set : x.getLsbD k = true)
    (clear : forall i, i < k -> x.getLsbD i = false) : x.ctz.toNat = k := by
  have nonzero : x ≠ 0#w := by
    rintro rfl
    cases BitVec.getLsbD_zero.symm.trans set
  rcases Nat.lt_trichotomy x.ctz.toNat k with below | same | above
  · cases (clear _ below).symm.trans (BitVec.getLsbD_true_ctz_of_ne_zero nonzero)
  · exact same
  · cases (BitVec.getLsbD_false_of_lt_ctz above).symm.trans set

theorem ctz_toNat_zero : (0#w).ctz.toNat = w := by
  have reversed : (0#w).reverse = 0#w := BitVec.reverse_eq_zero_iff.mpr rfl
  have all : (0#w).ctz = BitVec.ofNat w w := by
    rw [BitVec.ctz, reversed]
    exact BitVec.clz_eq_iff_eq_zero.mpr rfl
  rw [all, BitVec.toNat_ofNat, Nat.mod_eq_of_lt Nat.lt_two_pow_self]

theorem ctz_toNat_le : x.ctz.toNat ≤ w := by
  by_cases zero : x = 0#w
  · rw [zero]
    exact Nat.le_of_eq ctz_toNat_zero
  · have less := BitVec.lt_def.mp (BitVec.ctz_lt_iff_ne_zero.mpr zero)
    rw [BitVec.natCast_eq_ofNat, BitVec.toNat_ofNat, Nat.mod_eq_of_lt Nat.lt_two_pow_self] at less
    exact Nat.le_of_lt less

theorem getLsbD_and_neg (nonzero : x ≠ 0#w) (i : Nat) :
    (x &&& -x).getLsbD i = true <-> i = x.ctz.toNat := by
  have set := BitVec.getLsbD_true_ctz_of_ne_zero nonzero
  rw [BitVec.getLsbD_and, BitVec.getLsbD_neg]
  constructor
  · intro both
    rcases Nat.lt_trichotomy i x.ctz.toNat with below | same | above
    · rw [BitVec.getLsbD_false_of_lt_ctz below, Bool.false_and] at both
      cases both
    · exact same
    · have lower : exists j, j < i ∧ x.getLsbD j = true := ⟨_, above, set⟩
      have bounded : x.getLsbD i = true -> i < w := BitVec.lt_of_getLsbD
      cases own : x.getLsbD i
      · simp [own] at both
      · simp [bounded own, lower] at both
  · rintro rfl
    have lowest : ¬exists j, j < x.ctz.toNat ∧ x.getLsbD j = true := by
      rintro ⟨j, below, other⟩
      cases (BitVec.getLsbD_false_of_lt_ctz below).symm.trans other
    simp [set, lowest]

theorem ctz_and_neg : (x &&& -x).ctz.toNat = x.ctz.toNat := by
  by_cases zero : x = 0#w
  · rw [zero, BitVec.zero_and]
  · refine ctz_toNat_eq ((getLsbD_and_neg zero _).mpr rfl) fun i below => ?_
    refine Bool.eq_false_iff.mpr fun set => ?_
    exact absurd ((getLsbD_and_neg zero i).mp set) (Nat.ne_of_lt below)

end lowestBit

end Data
end Autolock
