import Autolock.Data.Interpolation
import Autolock.Lib.StatsCsv
import Mathlib.Algebra.BigOperators.Group.List.Basic
import Mathlib.Data.Rat.Floor

namespace Autolock
namespace Lib

open Data

/-!
# The percentiles of sorted data

`calc_percentiles` looks up each percentile at a fraction of the last index.  A
fraction that is no index takes a weighted average of the two elements around it.
Exact rationals stand for the doubles.
-/

/-! ## The code -/

/-- `CAST(uint64_t, x)` -/
def castUint64 (x : Rat) : UInt64 :=
  UInt64.ofNat ⌊x⌋₊

/-- `dbl_data[idx]`, if that is inside the array. -/
def element (dblData : List Rat) (idx : UInt64) : Option Rat :=
  dblData[idx.toNat]?

def calcMedian (dblData : List Rat) (nelem : UInt64) : Option Rat := do
  if nelem % 2 ≠ 0 then element dblData (nelem / 2)
  else return ((<- element dblData (nelem / 2)) + (<- element dblData (nelem / 2 - 1))) / 2

def nelemMul (nelem : UInt64) : Rat :=
  ((nelem - 1).toNat : Rat) / 100

/-- The body of the loop, for an element of `I_percentiles`. -/
def calcPercentile (dblData : List Rat) (nelem : UInt64) (percentile : UInt32) : Option Rat := do
  let dblIdx := (percentile.toNat : Rat) * nelemMul nelem
  let idx := castUint64 dblIdx
  -- No average is needed for an index, nor if there is no next element.
  if dblIdx = idx.toNat ∨ idx + 1 ≥ nelem then element dblData idx
  else
    let valLo <- element dblData idx
    let valHi <- element dblData (idx + 1)
    let remainder := dblIdx - idx.toNat
    return valLo * (1 - remainder) + valHi * remainder

def calcPercentiles (dblData : List Rat) (nelem : UInt64) : Option (List Rat) :=
  supportedPercentiles.mapM (calcPercentile dblData nelem)

/-! ## The percentiles as an interpolation -/

section sorted

variable {dblData : List Rat} {nelem : UInt64}

/-- The data as a sequence that stays at its last element. -/
def continued (dblData : List Rat) (i : Nat) : Rat :=
  dblData.getD (min i (dblData.length - 1)) 0

theorem continued_eq {i : Nat} (inside : i < dblData.length) :
    continued dblData i = dblData[i] := by
  have same : min i (dblData.length - 1) = i := by omega
  rw [continued, same, List.getD, List.getElem?_eq_getElem inside, Option.getD_some]

theorem element_eq {idx : UInt64} (inside : idx.toNat < dblData.length) :
    element dblData idx = some (continued dblData idx.toNat) := by
  rw [element, List.getElem?_eq_getElem inside, continued_eq inside]

theorem continued_monotone (sorted : dblData.Pairwise (· ≤ ·)) : Monotone (continued dblData) := by
  intro i j ordered
  rcases Nat.eq_zero_or_pos dblData.length with none | some
  · rw [List.length_eq_zero_iff.mp none]
    exact le_refl _
  · have less : min i (dblData.length - 1) ≤ min j (dblData.length - 1) := by omega
    have inside : min j (dblData.length - 1) < dblData.length := by omega
    have first : continued dblData i = dblData[min i (dblData.length - 1)] := by
      rw [← continued_eq, continued, continued, Nat.min_assoc, Nat.min_self]
    have second : continued dblData j = dblData[min j (dblData.length - 1)] := by
      rw [← continued_eq, continued, continued, Nat.min_assoc, Nat.min_self]
    rw [first, second]
    rcases Nat.eq_or_lt_of_le less with same | before
    · simp only [same, le_refl]
    · exact List.pairwise_iff_getElem.mp sorted _ _ _ inside before

/-- The number that the code looks up. -/
def rank (last : Nat) (percentile : Rat) : Rat :=
  percentile * (last / 100)

theorem rank_mem {last : Nat} {percentile : Rat} (nonneg : 0 ≤ percentile)
    (valid : percentile ≤ 100) : 0 ≤ rank last percentile ∧ rank last percentile ≤ last := by
  have positive : (0 : Rat) ≤ last / 100 := by positivity
  constructor
  · exact mul_nonneg nonneg positive
  · calc
      percentile * (last / 100) ≤ 100 * (last / 100) := mul_le_mul_of_nonneg_right valid positive
      _ = last := by ring

theorem calcPercentile_eq (size : dblData.length = nelem.toNat) (nonempty : 0 < nelem)
    {percentile : UInt32} (valid : percentile ≤ 100) :
    calcPercentile dblData nelem percentile =
      some (interpolate (continued dblData) (rank (nelem.toNat - 1) percentile.toNat)) := by
  have positive : 0 < nelem.toNat := UInt64.lt_iff_toNat_lt.mp nonempty
  have bounded : nelem.toNat < 2 ^ 64 := nelem.toNat_lt
  have last : (nelem - 1).toNat = nelem.toNat - 1 := by
    rw [UInt64.toNat_sub_of_le]
    · rfl
    · exact UInt64.le_iff_toNat_le.mpr positive
  have hundred : (percentile.toNat : Rat) ≤ 100 := by
    exact_mod_cast UInt32.le_iff_toNat_le.mp valid
  rcases @rank_mem (nelem.toNat - 1) percentile.toNat (Nat.cast_nonneg _) hundred with
    ⟨nonneg, high⟩
  have looked : (percentile.toNat : Rat) * nelemMul nelem =
      rank (nelem.toNat - 1) percentile.toNat := by
    rw [nelemMul, last, rank]
  generalize rank (nelem.toNat - 1) percentile.toNat = x at *
  have floor : ⌊x⌋₊ ≤ nelem.toNat - 1 := Nat.floor_le_of_le high
  have idx : (castUint64 x).toNat = ⌊x⌋₊ :=
    UInt64.toNat_ofNat_of_lt' (show ⌊x⌋₊ < 2 ^ 64 by omega)
  have next : (castUint64 x + 1).toNat = ⌊x⌋₊ + 1 := by
    rw [UInt64.toNat_add, idx]
    exact Nat.mod_eq_of_lt (show ⌊x⌋₊ + 1 < 2 ^ 64 by omega)
  unfold calcPercentile
  simp only [looked, idx]
  split
  · rename_i alone
    have index : x = ⌊x⌋₊ := by
      rcases alone with same | ending
      · exact same
      · have reached : nelem.toNat ≤ ⌊x⌋₊ + 1 := next ▸ UInt64.le_iff_toNat_le.mp ending
        have same : nelem.toNat - 1 = ⌊x⌋₊ := by omega
        rw [same] at high
        exact le_antisymm high (Nat.floor_le nonneg)
    rw [element_eq (by omega), idx]
    nth_rewrite 2 [index]
    rw [interpolate_natCast]
  · rename_i between
    have inside : ⌊x⌋₊ + 1 < nelem.toNat := by
      by_contra reached
      exact between (Or.inr (UInt64.le_iff_toNat_le.mpr (by omega)))
    rw [element_eq (by omega), element_eq (by omega), idx, next]
    rfl

/-! ## What the percentiles are -/

/-- No read is outside the data; the percentiles increase from the minimum over the
median to the maximum. -/
structure PercentilesOf (dblData : List Rat) (nelem : UInt64) (value : UInt32 -> Rat) : Prop where
  computed : forall p, p ≤ 100 -> calcPercentile dblData nelem p = some (value p)
  stored : calcPercentiles dblData nelem = some (supportedPercentiles.map value)
  increasing : forall p q, p ≤ q -> q ≤ 100 -> value p ≤ value q
  between : forall p, p ≤ 100 -> value 0 ≤ value p ∧ value p ≤ value 100
  minimum : IsLeast { x | x ∈ dblData } (value 0)
  maximum : IsGreatest { x | x ∈ dblData } (value 100)
  median : calcMedian dblData nelem = some (value 50)

theorem supportedPercentiles_le : forall p, p ∈ supportedPercentiles -> p ≤ 100 := by
  have checked : (supportedPercentiles.all fun p => decide (p ≤ 100)) = true := rfl
  intro p member
  exact of_decide_eq_true (List.all_eq_true.mp checked p member)

theorem mapM_some {f : UInt32 -> Option Rat} {value : UInt32 -> Rat} {ps : List UInt32}
    (computed : forall p, p ∈ ps -> f p = some (value p)) : ps.mapM f = some (ps.map value) := by
  induction ps with
  | nil => rfl
  | cons p ps inductionHypothesis =>
      rw [List.mapM_cons, computed p List.mem_cons_self,
        inductionHypothesis fun q member => computed q (List.mem_cons_of_mem p member)]
      rfl

/-- An odd number of elements has one in the middle, and an even one has two. -/
theorem calcMedian_eq (size : dblData.length = nelem.toNat) (nonempty : 0 < nelem) :
    calcMedian dblData nelem =
      some (interpolate (continued dblData) (rank (nelem.toNat - 1) 50)) := by
  have positive : 0 < nelem.toNat := UInt64.lt_iff_toNat_lt.mp nonempty
  have half : (nelem / 2).toNat = nelem.toNat / 2 := UInt64.toNat_div _ _
  have parity : nelem % 2 ≠ 0 <-> nelem.toNat % 2 = 1 := by
    rw [ne_eq, ← UInt64.toNat_inj, UInt64.toNat_mod]
    exact Nat.mod_two_ne_zero
  unfold calcMedian
  by_cases odd : nelem.toNat % 2 = 1
  · have middle : rank (nelem.toNat - 1) 50 = (nelem.toNat / 2 : Nat) := by
      have twice : nelem.toNat - 1 = 2 * (nelem.toNat / 2) := by omega
      rw [rank, twice]
      push_cast
      ring
    rw [if_pos (parity.mpr odd), element_eq (by omega), half, middle, interpolate_natCast]
  · have before : (nelem / 2 - 1).toNat = nelem.toNat / 2 - 1 := by
      rw [UInt64.toNat_sub_of_le, half]
      · rfl
      · refine UInt64.le_iff_toNat_le.mpr ?_
        rw [half]
        exact show 1 ≤ nelem.toNat / 2 by omega
    have middle : rank (nelem.toNat - 1) 50 = (nelem.toNat / 2 - 1 : Nat) + 1 / 2 := by
      have twice : nelem.toNat - 1 = 2 * (nelem.toNat / 2 - 1) + 1 := by omega
      rw [rank, twice]
      push_cast
      ring
    have next : nelem.toNat / 2 - 1 + 1 = nelem.toNat / 2 := by omega
    rw [if_neg fun other => odd (parity.mp other), element_eq (by omega), element_eq (by omega),
      half, before, middle, interpolate_middle, next]
    rfl

/-- The first element of sorted data is the least, and the last is the greatest. -/
theorem continued_extreme (sorted : dblData.Pairwise (· ≤ ·)) (nonempty : 0 < dblData.length) :
    IsLeast { x | x ∈ dblData } (continued dblData 0) ∧
      IsGreatest { x | x ∈ dblData } (continued dblData (dblData.length - 1)) := by
  have steps := continued_monotone sorted
  have member : forall i, i < dblData.length -> continued dblData i ∈ dblData := by
    intro i inside
    rw [continued_eq inside]
    exact List.getElem_mem inside
  refine ⟨⟨member 0 nonempty, fun x inside => ?_⟩, ⟨member _ (by omega), fun x inside => ?_⟩⟩
  · rcases List.getElem_of_mem inside with ⟨i, less, rfl⟩
    rw [← continued_eq less]
    exact steps (Nat.zero_le i)
  · rcases List.getElem_of_mem inside with ⟨i, less, rfl⟩
    rw [← continued_eq less]
    exact steps (by omega)

/-- Whatever the data, the code reads inside it and computes what it should. -/
theorem percentiles_ordered (size : dblData.length = nelem.toNat) (nonempty : 0 < nelem)
    (sorted : dblData.Pairwise (· ≤ ·)) : exists value, PercentilesOf dblData nelem value := by
  have positive : 0 < nelem.toNat := UInt64.lt_iff_toNat_lt.mp nonempty
  rcases continued_extreme sorted (by omega) with ⟨minimum, maximum⟩
  let value (p : UInt32) : Rat :=
    interpolate (continued dblData) (rank (nelem.toNat - 1) p.toNat)
  have first : value 0 = continued dblData 0 := by
    have start : rank (nelem.toNat - 1) (0 : UInt32).toNat = (0 : Nat) := by simp [rank]
    exact (congrArg _ start).trans (interpolate_natCast _ _)
  have last : value 100 = continued dblData (nelem.toNat - 1) := by
    have ending : rank (nelem.toNat - 1) (100 : UInt32).toNat = (nelem.toNat - 1 : Nat) := by
      rw [rank]
      simp
      ring
    exact (congrArg _ ending).trans (interpolate_natCast _ _)
  have increasing : forall p q, p ≤ q -> q ≤ 100 -> value p ≤ value q := by
    intro p q ordered valid
    have less : (p.toNat : Rat) ≤ q.toNat := by
      exact_mod_cast UInt32.le_iff_toNat_le.mp ordered
    have hundred : (q.toNat : Rat) ≤ 100 := by
      exact_mod_cast UInt32.le_iff_toNat_le.mp valid
    have scale : (0 : Rat) ≤ (nelem.toNat - 1 : Nat) / 100 := by positivity
    refine interpolate_monotoneOn (continued_monotone sorted)
      (rank_mem (Nat.cast_nonneg _) (le_trans less hundred)).1
      (rank_mem (Nat.cast_nonneg _) hundred).1 ?_
    exact mul_le_mul_of_nonneg_right less scale
  have computed : forall p, p ≤ 100 -> calcPercentile dblData nelem p = some (value p) :=
    fun p valid => calcPercentile_eq size nonempty valid
  exact ⟨value, {
    computed := computed
    stored := mapM_some fun p member => computed p (supportedPercentiles_le p member)
    increasing := increasing
    between := fun p valid =>
      ⟨increasing 0 p (UInt32.zero_le) valid, increasing p 100 valid (UInt32.le_refl 100)⟩
    minimum := first ▸ minimum
    maximum := last ▸ size ▸ maximum
    median := calcMedian_eq size nonempty }⟩

end sorted

theorem percentiles_ordered_three : exists value, PercentilesOf [1, 2, 4] 3 value :=
  percentiles_ordered rfl (by decide) (by norm_num)

end Lib
end Autolock
