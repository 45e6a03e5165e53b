import Autolock.Data.Smear
import Mathlib.Algebra.Group.Int.Defs

namespace Autolock
namespace Util

open Data

/-!
# `next_p2` and `prev_p2`

Each of the two macros has a branch for arguments that the compiler knows, which
smears the bits of the argument, and one for the others, which counts leading
zeros.  The argument is converted to the unsigned type of its width; the power
of two of the second branch is shifted in the type of the argument itself.
-/

/-! ## Integer types -/

structure IntType where
  bits : Nat
  signed : Bool
  width : bits = 32 ∨ bits = 64

namespace IntType

theorem bits_pos (type : IntType) : 0 < type.bits := by
  rcases type.width with width | width <;> omega

theorem bits_le (type : IntType) : type.bits ≤ 64 := by
  rcases type.width with width | width <;> omega

/-- The number of the type with the same low bits. -/
def wrap (type : IntType) (v : Int) : Int :=
  let word := BitVec.ofInt type.bits v
  if type.signed then word.toInt else word.toNat

theorem ofInt_wrap (type : IntType) (v : Int) :
    BitVec.ofInt type.bits (type.wrap v) = BitVec.ofInt type.bits v := by
  unfold wrap
  dsimp only
  split
  · exact BitVec.ofInt_toInt
  · rw [BitVec.ofInt_natCast, BitVec.ofNat_toNat, BitVec.setWidth_eq]

/-- A value of an integer type. -/
structure Value (type : IntType) where
  val : Int
  wrap_val : type.wrap val = val

variable {type : IntType}

/-- A conversion to the type. -/
def cast (type : IntType) (v : Int) : type.Value where
  val := type.wrap v
  wrap_val := by
    rw [wrap, ofInt_wrap]
    rfl

/-- The conversion to the unsigned type of the same width. -/
def Value.toUnsigned (x : type.Value) : BitVec type.bits :=
  BitVec.ofInt type.bits x.val

@[simp] theorem toUnsigned_cast (v : Int) :
    (type.cast v).toUnsigned = BitVec.ofInt type.bits v :=
  type.ofInt_wrap v

/-- A shift, modulo a power of two; for a distance beyond the width, any value. -/
def Value.shiftLeft (x : type.Value) (distance : BitVec 64) (beyond : type.Value) : type.Value :=
  if distance.toNat < type.bits then type.cast (x.val * 2 ^ distance.toNat) else beyond

theorem toUnsigned_shiftLeft {x beyond : type.Value} {distance : BitVec 64}
    (within : distance.toNat < type.bits) :
    (x.shiftLeft distance beyond).toUnsigned = x.toUnsigned <<< distance.toNat := by
  have power : BitVec.ofInt type.bits (2 ^ distance.toNat) =
      BitVec.twoPow type.bits distance.toNat := by
    apply BitVec.eq_of_toNat_eq
    have natural : (2 : Int) ^ distance.toNat = ((2 ^ distance.toNat : Nat) : Int) :=
      (Int.natCast_pow 2 _).symm
    rw [BitVec.toNat_twoPow, natural, BitVec.ofInt_natCast, BitVec.toNat_ofNat]
  rw [Value.shiftLeft, if_pos within, toUnsigned_cast, Value.toUnsigned, BitVec.ofInt_mul, power,
    ← BitVec.shiftLeft_eq_mul_twoPow]

end IntType

/-! ## The macros -/

section macros

variable {type : IntType}

/-- `clz`, that is `_lzcnt_u32` or `_lzcnt_u64` -/
def clz {w : Nat} (x : BitVec w) : BitVec 32 :=
  BitVec.ofNat 32 x.clz.toNat

/-- The run of `|=` in the branches for constants. -/
def smear (x : BitVec type.bits) : BitVec type.bits :=
  let x := x ||| x >>> 1
  let x := x ||| x >>> 2
  let x := x ||| x >>> 4
  let x := x ||| x >>> 8
  let x := x ||| x >>> 16
  if type.bits = 64 then x ||| x >>> 32 else x

/-- `(sizeof_bits(get_type(x)) - 1) - clz(...)` -/
def shiftDistance (x : BitVec type.bits) : BitVec 64 :=
  BitVec.ofNat 64 type.bits - 1 - (clz x).setWidth 64

def nextP2Constant (x : type.Value) : BitVec type.bits :=
  smear (x.toUnsigned - 1#_) + 1#_

def nextP2RunTime (x beyond : type.Value) : BitVec type.bits :=
  if x.toUnsigned ≤ 2#_ then x.toUnsigned
  else ((type.cast 2).shiftLeft (shiftDistance (x.toUnsigned - 1#_)) beyond).toUnsigned

/-- `next_p2`, with the answer of `__builtin_constant_p` -/
def nextP2 (constant : Bool) (x beyond : type.Value) : BitVec type.bits :=
  if constant then nextP2Constant x else nextP2RunTime x beyond

def prevP2Constant (x : type.Value) : BitVec type.bits :=
  smear x.toUnsigned - smear x.toUnsigned >>> 1

def prevP2RunTime (x beyond : type.Value) : BitVec type.bits :=
  x.toUnsigned &&& ((type.cast 1).shiftLeft (shiftDistance x.toUnsigned) beyond).toUnsigned

/-- `prev_p2` -/
def prevP2 (constant : Bool) (x beyond : type.Value) : BitVec type.bits :=
  if constant then prevP2Constant x else prevP2RunTime x beyond

/-! ## What is expected -/

/-- The least power of two not below `n`, modulo `2 ^ w`; 0 for 0. -/
def IsNextP2 {w : Nat} (n result : BitVec w) : Prop :=
  if n = 0#w then result = 0#w
  else exists p, IsLeast { p | p ∈ powersOfTwo ∧ n.toNat ≤ p } p ∧ result.toNat = p % 2 ^ w

/-- The greatest power of two not above `n`; 0 for 0. -/
def IsPrevP2 {w : Nat} (n result : BitVec w) : Prop :=
  if n = 0#w then result = 0#w
  else IsGreatest { p | p ∈ powersOfTwo ∧ p ≤ n.toNat } result.toNat

/-! ## What they compute -/

/-- The shifts reach through the whole width. -/
theorem smearedBy_smear (x : BitVec type.bits) :
    exists n, type.bits ≤ n ∧ SmearedBy n x (smear x) := by
  have rounds := (smearedBy_one x).double.double.double.double.double
  rcases type.width with width | width
  · refine ⟨32, Nat.le_of_eq width, ?_⟩
    rw [smear, if_neg (by omega)]
    exact rounds
  · refine ⟨64, Nat.le_of_eq width, ?_⟩
    rw [smear, if_pos width]
    exact rounds.double

theorem toNat_smear {x : BitVec type.bits} (nonzero : x ≠ 0#_) :
    (smear x).toNat = 2 ^ (x.toNat.log2 + 1) - 1 := by
  rcases smearedBy_smear x with ⟨n, wide, smeared⟩
  exact smeared.toNat_eq wide nonzero

theorem smear_zero : smear 0#(type.bits) = 0#(type.bits) := by
  rcases smearedBy_smear 0#(type.bits) with ⟨n, -, smeared⟩
  exact smeared.zero

theorem toNat_distance {bits k : Nat} (within : k < bits) (small : bits ≤ 64) :
    (BitVec.ofNat 64 bits - 1 - (BitVec.ofNat 32 (bits - 1 - k)).setWidth 64).toNat = k := by
  bv_omega

/-- The distance is the index of the highest bit. -/
theorem toNat_shiftDistance {x : BitVec type.bits} (nonzero : x ≠ 0#_) :
    (shiftDistance x).toNat = x.toNat.log2 ∧ x.toNat.log2 < type.bits := by
  rcases toNat_clz nonzero with ⟨zeros, bounded⟩
  rw [shiftDistance, clz, zeros]
  exact ⟨toNat_distance bounded type.bits_le, bounded⟩

theorem toUnsigned_shiftLeft_distance {n : BitVec type.bits} (nonzero : n ≠ 0#_) (v : Int)
    (beyond : type.Value) :
    ((type.cast v).shiftLeft (shiftDistance n) beyond).toUnsigned =
      BitVec.ofInt type.bits v <<< n.toNat.log2 := by
  rcases toNat_shiftDistance nonzero with ⟨distance, bounded⟩
  rw [IntType.toUnsigned_shiftLeft (by omega), IntType.toUnsigned_cast, distance]

theorem four_le_width : 4 ≤ 2 ^ type.bits := by
  rcases type.width with width | width <;> rw [width] <;> decide

theorem toNat_one : (1#(type.bits)).toNat = 1 :=
  Nat.mod_eq_of_lt (Nat.lt_of_lt_of_le (by decide) four_le_width)

theorem toNat_sub_one {n : BitVec type.bits} (nonzero : n ≠ 0#_) :
    (n - 1#_).toNat = n.toNat - 1 := by
  have positive : n.toNat ≠ 0 := fun zero => nonzero (BitVec.eq_of_toNat_eq zero)
  rw [BitVec.toNat_sub_of_le (by rw [BitVec.le_def, toNat_one]; omega), toNat_one]

theorem toNat_two : (2#(type.bits)).toNat = 2 :=
  Nat.mod_eq_of_lt (Nat.lt_of_lt_of_le (by decide) four_le_width)

/-- Before a number above 1 there is one whose bits can be smeared. -/
theorem sub_one_ne_zero {n : BitVec type.bits} (large : 1 < n.toNat) :
    (n - 1#_).toNat = n.toNat - 1 ∧ n - 1#_ ≠ 0#_ := by
  have nonzero : n ≠ 0#_ := by
    rintro rfl
    cases large
  have before := toNat_sub_one nonzero
  refine ⟨before, fun zero => ?_⟩
  rw [zero, BitVec.toNat_zero] at before
  omega

section next

variable (x beyond : type.Value)

/-- For 0 all the bits are smeared already. -/
theorem nextP2Constant_zero (zero : x.toUnsigned = 0#_) : nextP2Constant x = 0#_ := by
  have wide : 4 ≤ 2 ^ type.bits := four_le_width
  have top : (0#(type.bits) - 1#_).toNat = 2 ^ type.bits - 1 := by
    rw [BitVec.toNat_sub, toNat_one, BitVec.toNat_zero, Nat.add_zero, Nat.mod_eq_of_lt (by omega)]
  have nonzero : 0#(type.bits) - 1#_ ≠ 0#_ := by
    intro same
    rw [same, BitVec.toNat_zero] at top
    omega
  have highest : (2 ^ type.bits - 1).log2 + 1 = type.bits := by
    have positive := type.bits_pos
    have half : 2 ^ (type.bits - 1) + 2 ^ (type.bits - 1) = 2 ^ type.bits := by
      rw [← Nat.two_mul, ← Nat.pow_succ', Nat.succ_eq_add_one, Nat.sub_add_cancel positive]
    have index : (2 ^ type.bits - 1).log2 = type.bits - 1 := by
      refine (Nat.log2_eq_iff (by omega)).mpr ⟨by omega, ?_⟩
      rw [Nat.sub_add_cancel positive]
      omega
    omega
  apply BitVec.eq_of_toNat_eq
  rw [nextP2Constant, zero, BitVec.toNat_add, toNat_smear nonzero, top, highest, toNat_one,
    Nat.sub_add_cancel (by omega), Nat.mod_self]
  rfl

theorem nextP2Constant_one (one : x.toUnsigned = 1#_) : nextP2Constant x = 1#_ := by
  rw [nextP2Constant, one, BitVec.sub_self, smear_zero, BitVec.zero_add]

theorem toNat_nextP2Constant (large : 1 < x.toUnsigned.toNat) :
    (nextP2Constant x).toNat = 2 ^ ((x.toUnsigned.toNat - 1).log2 + 1) % 2 ^ type.bits := by
  rcases sub_one_ne_zero large with ⟨before, positive⟩
  rw [nextP2Constant, BitVec.toNat_add, toNat_smear positive, before, toNat_one,
    Nat.sub_add_cancel (Nat.two_pow_pos _)]

theorem toNat_nextP2RunTime (large : 2 < x.toUnsigned.toNat) :
    (nextP2RunTime x beyond).toNat = 2 ^ ((x.toUnsigned.toNat - 1).log2 + 1) % 2 ^ type.bits := by
  rcases sub_one_ne_zero (Nat.lt_trans Nat.one_lt_two large) with ⟨before, positive⟩
  have above : ¬x.toUnsigned ≤ 2#_ := by
    rw [BitVec.le_def, toNat_two]
    omega
  have start : (BitVec.ofInt type.bits 2).toNat = 2 := toNat_two
  rw [nextP2RunTime, if_neg above, toUnsigned_shiftLeft_distance positive, BitVec.toNat_shiftLeft,
    start, before, Nat.shiftLeft_eq, Nat.pow_succ']

/-- The run-time branch returns 0, 1 and 2 as they are. -/
theorem nextP2_eq : nextP2RunTime x beyond = nextP2Constant x := by
  by_cases large : 2 < x.toUnsigned.toNat
  · apply BitVec.eq_of_toNat_eq
    rw [toNat_nextP2RunTime x beyond large, toNat_nextP2Constant x (by omega)]
  have small : x.toUnsigned ≤ 2#_ := by
    rw [BitVec.le_def, toNat_two]
    omega
  rw [nextP2RunTime, if_pos small]
  have cases : x.toUnsigned.toNat = 0 ∨ x.toUnsigned.toNat = 1 ∨ x.toUnsigned.toNat = 2 := by omega
  rcases cases with zero | one | same
  · have zero : x.toUnsigned = 0#_ := BitVec.eq_of_toNat_eq zero
    rw [nextP2Constant_zero x zero, zero]
  · have one : x.toUnsigned = 1#_ := BitVec.eq_of_toNat_eq (one.trans toNat_one.symm)
    rw [nextP2Constant_one x one, one]
  · apply BitVec.eq_of_toNat_eq
    rw [toNat_nextP2Constant x (by omega), same]
    exact toNat_two.symm

theorem isNextP2_constant : IsNextP2 x.toUnsigned (nextP2Constant x) := by
  by_cases zero : x.toUnsigned = 0#_
  · rw [IsNextP2, if_pos zero, nextP2Constant_zero x zero]
  have positive : x.toUnsigned.toNat ≠ 0 := fun none => zero (BitVec.eq_of_toNat_eq none)
  rw [IsNextP2, if_neg zero]
  by_cases one : x.toUnsigned.toNat = 1
  · have one' : x.toUnsigned = 1#_ := BitVec.eq_of_toNat_eq (one.trans toNat_one.symm)
    have power : (1 : Nat) ∈ powersOfTwo := ⟨0, rfl⟩
    refine ⟨1, ⟨⟨power, Nat.le_of_eq one⟩, fun p least => Nat.le_trans (by omega) least.2⟩, ?_⟩
    rw [nextP2Constant_one x one']
    rfl
  · have large : 1 < x.toUnsigned.toNat := by omega
    exact ⟨_, isLeast_powerOfTwo large, toNat_nextP2Constant x large⟩

end next

section prev

variable (x beyond : type.Value)

theorem prevP2Constant_zero (zero : x.toUnsigned = 0#_) : prevP2Constant x = 0#_ := by
  rw [prevP2Constant, zero, smear_zero, BitVec.zero_ushiftRight, BitVec.sub_self]

theorem prevP2RunTime_zero (zero : x.toUnsigned = 0#_) : prevP2RunTime x beyond = 0#_ := by
  rw [prevP2RunTime, zero, BitVec.zero_and]

theorem toNat_prevP2Constant (nonzero : x.toUnsigned ≠ 0#_) :
    (prevP2Constant x).toNat = 2 ^ x.toUnsigned.toNat.log2 := by
  have smeared := toNat_smear nonzero
  have half : (smear x.toUnsigned >>> 1).toNat = 2 ^ x.toUnsigned.toNat.log2 - 1 := by
    rw [BitVec.toNat_ushiftRight, smeared, Nat.shiftRight_eq_div_pow, Nat.pow_succ]
    omega
  have power : 0 < 2 ^ x.toUnsigned.toNat.log2 := Nat.two_pow_pos _
  rw [Nat.pow_succ] at smeared
  rw [prevP2Constant, BitVec.toNat_sub_of_le (by rw [BitVec.le_def]; omega), smeared, half]
  omega

theorem toNat_prevP2RunTime (nonzero : x.toUnsigned ≠ 0#_) :
    (prevP2RunTime x beyond).toNat = 2 ^ x.toUnsigned.toNat.log2 := by
  have positive : x.toUnsigned.toNat ≠ 0 := fun zero => nonzero (BitVec.eq_of_toNat_eq zero)
  rcases toNat_shiftDistance nonzero with ⟨-, bounded⟩
  have set : x.toUnsigned.getLsbD x.toUnsigned.toNat.log2 = true := Nat.testBit_log2 positive
  have power : BitVec.ofInt type.bits 1 <<< x.toUnsigned.toNat.log2 =
      BitVec.twoPow type.bits x.toUnsigned.toNat.log2 := rfl
  rw [prevP2RunTime, toUnsigned_shiftLeft_distance nonzero, power, BitVec.and_twoPow, if_pos set,
    BitVec.toNat_twoPow_of_lt bounded]

theorem prevP2_eq : prevP2RunTime x beyond = prevP2Constant x := by
  by_cases zero : x.toUnsigned = 0#_
  · rw [prevP2RunTime_zero x beyond zero, prevP2Constant_zero x zero]
  · apply BitVec.eq_of_toNat_eq
    rw [toNat_prevP2RunTime x beyond zero, toNat_prevP2Constant x zero]

theorem isPrevP2_constant : IsPrevP2 x.toUnsigned (prevP2Constant x) := by
  by_cases zero : x.toUnsigned = 0#_
  · rw [IsPrevP2, if_pos zero, prevP2Constant_zero x zero]
  · have positive : x.toUnsigned.toNat ≠ 0 := fun none => zero (BitVec.eq_of_toNat_eq none)
    rw [IsPrevP2, if_neg zero, toNat_prevP2Constant x zero]
    exact isGreatest_powerOfTwo positive

end prev

/-- Both branches compute the neighbouring power of two, whatever the argument
and its type, and whatever a shift beyond the width yields. -/
theorem neighbouring_powers (constant : Bool) (x beyond : type.Value) :
    nextP2 false x beyond = nextP2 true x beyond ∧
      prevP2 false x beyond = prevP2 true x beyond ∧
      IsNextP2 x.toUnsigned (nextP2 constant x beyond) ∧
      IsPrevP2 x.toUnsigned (prevP2 constant x beyond) := by
  have next : nextP2 constant x beyond = nextP2Constant x := by
    cases constant
    · exact nextP2_eq x beyond
    · rfl
  have prev : prevP2 constant x beyond = prevP2Constant x := by
    cases constant
    · exact prevP2_eq x beyond
    · rfl
  refine ⟨nextP2_eq x beyond, prevP2_eq x beyond, ?_, ?_⟩
  · rw [next]
    exact isNextP2_constant x
  · rw [prev]
    exact isPrevP2_constant x

end macros

end Util
end Autolock
