import Autolock.Util.Arg
import Mathlib.Data.Nat.Digits.Defs

namespace Autolock
namespace Util

open Strtol
open Data Data.ByteMemory

/-!
# Which numbers `assignArg` stores without a warning

The range of a number is checked after its conversion to 64 bits.  A destination
of eight bytes is not checked at all.  For an unsigned one `strtoull` has negated
the number already, modulo `2 ^ 64`, so that the largest magnitudes come back as
small numbers.
-/

/-- A word with the number that it denotes, as its sign and its magnitude. -/
inductive IntegerWord : CString -> Bool -> Nat -> Prop
  | decimal {ds : CString} {values : List Nat} (digits : ds.mapM (digit 10) = some values)
      (nonempty : ds ≠ []) : IntegerWord ds false (Nat.ofDigits 10 values.reverse)
  | negative {ds : CString} {values : List Nat} (digits : ds.mapM (digit 10) = some values)
      (nonempty : ds ≠ []) : IntegerWord ('-' :: ds) true (Nat.ofDigits 10 values.reverse)
  | hexadecimal {ds : CString} {values : List Nat} (digits : ds.mapM (digit 16) = some values)
      (nonempty : ds ≠ []) : IntegerWord ('0' :: 'x' :: ds) false (Nat.ofDigits 16 values.reverse)

def denoted (negative : Bool) (magnitude : Nat) : Int :=
  if negative then -magnitude else magnitude

/-- A negative number fits the signed type of the size of the destination, another
one the type of the destination itself. -/
def Fits (desc : ArgOption) (number : Int) : Prop :=
  if number < 0 then -2 ^ (8 * desc.destSz - 1) ≤ number
  else if desc.isUnsigned then number < 2 ^ (8 * desc.destSz)
  else number < 2 ^ (8 * desc.destSz - 1)

instance (desc : ArgOption) (number : Int) : Decidable (Fits desc number) :=
  inferInstanceAs (Decidable
    (if number < 0 then -2 ^ (8 * desc.destSz - 1) ≤ number
    else if desc.isUnsigned then number < 2 ^ (8 * desc.destSz)
    else number < 2 ^ (8 * desc.destSz - 1)))

/-- The word is stored in the destination and nowhere else, with a warning exactly if
its number does not fit, and without one as what it denotes. -/
def DetectsOverflow (desc : ArgOption) (word : CString) (number : Int) : Prop :=
  exists n overflow, convertInteger desc word = .stored n overflow ∧
    (overflow = true <-> ¬Fits desc number) ∧
    (overflow = false -> (n : Int) = number % 2 ^ (8 * desc.destSz)) ∧
    forall (Double : Type) (lib : ArgLib Double) (mem : ByteMemory) (argv : List CString)
      (i offset : Int), argAt argv (i + offset) = .ok (some word) ->
      exists mem', assignArg lib desc mem argv i offset = .ok (1, mem') ∧
        mem'.readNat desc.dest desc.destSz = n ∧
        forall a, a < desc.dest ∨ desc.dest + desc.destSz ≤ a -> mem' a = mem a

/-- The inputs whose overflow is detected, if the names of the descriptor do not end
the program before. -/
def OverflowDetected (desc : ArgOption) (negative : Bool) (magnitude : Nat) : Prop :=
  desc.Printable ∧
    if desc.destSz = 8 then Fits desc (denoted negative magnitude)
    else desc.isUnsigned = true -> negative = true ->
      magnitude ≤ 2 ^ 64 - 2 ^ (8 * desc.destSz - 1)

/-! ## Words -/

theorem digit_range {base : Nat} {c : Char} {d : Nat} (is : digit base c = some d) :
    ('0' ≤ c ∧ c ≤ '9') ∨ ('a' ≤ c ∧ c ≤ 'z') ∨ ('A' ≤ c ∧ c ≤ 'Z') := by
  unfold digit at is
  by_contra none
  simp only [not_or] at none
  simp only [if_neg none.1, if_neg none.2.1, if_neg none.2.2, lt_irrefl, if_false] at is
  cases is

theorem isSpace_of_digit {base : Nat} {c : Char} {d : Nat} (is : digit base c = some d) :
    isSpace c = false := by
  have range := digit_range is
  simp only [Char.le_def, UInt32.le_iff_toNat_le] at range
  simp only [isSpace, Bool.or_eq_false_iff, beq_eq_false_iff_ne, Bool.and_eq_false_iff,
    decide_eq_false_iff_not, Char.le_def, UInt32.le_iff_toNat_le]
  constructor
  · rintro rfl
    revert range
    decide
  · simp at range ⊢
    omega

theorem not_sign_of_digit {base : Nat} {c : Char} {d : Nat} (is : digit base c = some d) :
    c ≠ '-' ∧ c ≠ '+' := by
  have range := digit_range is
  constructor <;> rintro rfl <;> revert range <;> decide

/-- The first of the digits that a word consists of. -/
theorem mapM_digit {base : Nat} {ds : CString} {values : List Nat}
    (are : ds.mapM (digit base) = some values) (nonempty : ds ≠ []) :
    exists c d ds' values', ds = c :: ds' ∧ values = d :: values' ∧ digit base c = some d ∧
      ds'.mapM (digit base) = some values' := by
  rcases List.exists_cons_of_ne_nil nonempty with ⟨c, ds', rfl⟩
  simp only [List.mapM_cons, Option.pure_def, Option.bind_eq_bind, Option.bind_eq_some_iff] at are
  rcases are with ⟨d, is, values', others, same⟩
  cases same
  exact ⟨c, d, ds', values', rfl, rfl, is, others⟩

theorem digits_of_mapM {base : Nat} {ds : CString} {values : List Nat}
    (are : ds.mapM (digit base) = some values) : digits base ds = (values, []) := by
  induction ds generalizing values with
  | nil =>
      cases are
      rfl
  | cons c ds inductionHypothesis =>
      rcases mapM_digit are (List.cons_ne_nil c ds) with ⟨_, d, _, values', same, rfl, is, others⟩
      cases same
      simp only [digits, is, inductionHypothesis others]

theorem numeral_eq_ofDigits (base : Nat) (values : List Nat) :
    numeral base values = Nat.ofDigits base values.reverse := by
  rw [Nat.ofDigits_eq_foldr, List.foldr_reverse, numeral]
  simp only [Nat.cast_id, Nat.add_comm, Nat.mul_comm]

theorem sign_of_digit {base : Nat} {c : Char} {d : Nat} (is : digit base c = some d)
    (ds : CString) : sign (c :: ds) = (false, c :: ds) := by
  rcases not_sign_of_digit is with ⟨noMinus, noPlus⟩
  unfold sign
  split
  · next same => exact absurd (List.head_eq_of_cons_eq same) noMinus
  · next same => exact absurd (List.head_eq_of_cons_eq same) noPlus
  · rfl

theorem skipPrefix_ten (s : CString) : skipPrefix 10 s = s := by
  unfold skipPrefix
  split
  · exact if_neg fun hexadecimal => absurd hexadecimal.1 (by decide)
  · rfl

/-- What the conversion makes of the form of a word. -/
theorem integerForm_word {word : CString} {negative : Bool} {magnitude : Nat}
    (is : IntegerWord word negative magnitude) :
    subject (integerForm word).1 word = some (negative, magnitude, []) ∧
      (integerForm word).2 = negative ∧ word ≠ [] := by
  cases is with
  | @decimal ds values are nonempty =>
      have found := digits_of_mapM are
      rcases mapM_digit are nonempty with ⟨c, d, ds', values', rfl, rfl, is, others⟩
      have form : integerForm (c :: ds') = (10, false) := by
        unfold integerForm
        rw [if_neg, if_neg]
        · exact fun minus => (not_sign_of_digit is).1 (Option.some.inj minus)
        · rintro ⟨_, second⟩
          rcases ds' with _ | ⟨x, ds''⟩
          · cases second
          · cases second
            simp [digit] at others
      refine ⟨?_, by rw [form], nonempty⟩
      rw [form, subject, List.dropWhile_cons_of_neg (by simp [isSpace_of_digit is]),
        sign_of_digit is, skipPrefix_ten, found, numeral_eq_ofDigits]
      rfl
  | @negative ds values are nonempty =>
      have found := digits_of_mapM are
      rcases mapM_digit are nonempty with ⟨c, d, ds', values', rfl, rfl, is, others⟩
      have form : integerForm ('-' :: c :: ds') = (10, true) := by simp [integerForm]
      refine ⟨?_, by rw [form], List.cons_ne_nil _ _⟩
      rw [form, subject, List.dropWhile_cons_of_neg (by decide), sign, skipPrefix_ten, found,
        numeral_eq_ofDigits]
      rfl
  | @hexadecimal ds values are nonempty =>
      have found := digits_of_mapM are
      rcases mapM_digit are nonempty with ⟨c, d, ds', values', rfl, rfl, is, others⟩
      have form : integerForm ('0' :: 'x' :: c :: ds') = (16, false) := by simp [integerForm]
      have skips : skipPrefix 16 ('0' :: 'x' :: c :: ds') = c :: ds' :=
        if_pos ⟨rfl, .inl rfl, by rw [is]; rfl⟩
      refine ⟨?_, by rw [form], List.cons_ne_nil _ _⟩
      rw [form, subject, List.dropWhile_cons_of_neg (by decide),
        @sign_of_digit 16 '0' 0 (by decide), skips, found, numeral_eq_ofDigits]
      rfl

/-- The 64 bits of `user_v`. -/
def userV (isUnsigned negative : Bool) (magnitude : Nat) : BitVec 64 :=
  if isUnsigned then
    if magnitude < 2 ^ 64 then
      if negative then -BitVec.ofNat 64 magnitude else BitVec.ofNat 64 magnitude
    else BitVec.ofNat 64 (2 ^ 64 - 1)
  else
    BitVec.ofInt 64
      (if negative then max (-2 ^ 63) (-(magnitude : Int)) else min (2 ^ 63 - 1) (magnitude : Int))

theorem convertInteger_word {word : CString} {negative : Bool} {magnitude : Nat}
    (is : IntegerWord word negative magnitude) (desc : ArgOption) :
    convertInteger desc word =
      storeInteger desc negative (userV desc.isUnsigned negative magnitude) := by
  rcases integerForm_word is with ⟨found, sign, nonempty⟩
  simp only [convertInteger, userV, sign]
  cases desc.isUnsigned
  · simp only [strtoll, found, Bool.false_eq_true, if_false]
    exact if_neg nonempty.symm
  · simp only [strtoull, found, if_true]
    split
    · rw [if_neg nonempty.symm]
      cases negative <;> rfl
    · exact if_neg nonempty.symm

/-! ## Sizes -/

theorem signExtend_setWidth_eq {bits : Nat} (size : bits = 8 ∨ bits = 16 ∨ bits = 32)
    (v : BitVec 64) :
    (v.setWidth bits).signExtend 64 = v <->
      -2 ^ (bits - 1) ≤ v.toInt ∧ v.toInt < 2 ^ (bits - 1) := by
  have small : bits ≤ 64 := by omega
  have bound := v.isLt
  rw [← BitVec.toInt_inj, BitVec.toInt_signExtend_of_le small, BitVec.toInt_setWidth,
    BitVec.toInt_eq_toNat_cond, Int.bmod]
  rcases size with rfl | rfl | rfl <;> split <;> split <;> omega

theorem setWidth_setWidth_eq {bits : Nat} (size : bits = 8 ∨ bits = 16 ∨ bits = 32)
    (v : BitVec 64) : (v.setWidth bits).setWidth 64 = v <-> v.toNat < 2 ^ bits := by
  have bound := v.isLt
  rw [← BitVec.toNat_inj, BitVec.toNat_setWidth, BitVec.toNat_setWidth]
  rcases size with rfl | rfl | rfl <;> omega

theorem checkOverflowError_iff {bits : Nat} (size : bits = 8 ∨ bits = 16 ∨ bits = 32)
    (isUnsigned isNegative : Bool) (v : BitVec 64) :
    checkOverflowError bits isUnsigned isNegative v = true <->
      if isNegative = true ∨ isUnsigned = false then
        ¬(-2 ^ (bits - 1) ≤ v.toInt ∧ v.toInt < 2 ^ (bits - 1))
      else ¬v.toNat < 2 ^ bits := by
  rw [← signExtend_setWidth_eq size, ← setWidth_setWidth_eq size]
  cases isNegative <;> cases isUnsigned <;> simp [checkOverflowError]

theorem storeInteger_small {desc : ArgOption}
    (size : desc.destSz = 1 ∨ desc.destSz = 2 ∨ desc.destSz = 4) (isNegative : Bool)
    (v : BitVec 64) :
    storeInteger desc isNegative v =
      .stored (v.toNat % 2 ^ (8 * desc.destSz))
        (checkOverflowError (8 * desc.destSz) desc.isUnsigned isNegative v) := by
  unfold storeInteger
  rcases size with size | size | size <;> rw [size] <;> simp only [BitVec.toNat_setWidth]

theorem storeInteger_eight {desc : ArgOption} (size : desc.destSz = 8) (isNegative : Bool)
    (v : BitVec 64) : storeInteger desc isNegative v = .stored v.toNat false := by
  simp only [storeInteger, size]

theorem userV_signed (negative : Bool) (magnitude : Nat) :
    (userV false negative magnitude).toInt =
      if negative then max (-2 ^ 63) (-(magnitude : Int)) else min (2 ^ 63 - 1) (magnitude : Int) := by
  rw [userV, if_neg (by decide), BitVec.toInt_ofInt_eq_self (by decide)]
  · cases negative <;> simp
  · cases negative
    · simp
    · simp only [if_true]
      omega

theorem userV_unsigned (magnitude : Nat) :
    (userV true false magnitude).toNat = min magnitude (2 ^ 64 - 1) := by
  rw [userV, if_pos rfl]
  split
  · rw [if_neg (by decide), BitVec.toNat_ofNat]
    omega
  · rw [BitVec.toNat_ofNat]
    omega

/-- `strtoull` has negated the magnitude, or is out of range. -/
theorem userV_negated (magnitude : Nat) :
    ((userV true true magnitude).toNat : Int) =
      if magnitude < 2 ^ 64 then -(magnitude : Int) % 2 ^ 64 else 2 ^ 64 - 1 := by
  rw [userV, if_pos rfl]
  split
  · rw [if_pos rfl, BitVec.toNat_neg, BitVec.toNat_ofNat]
    omega
  · rw [BitVec.toNat_ofNat]
    omega

/-! ## Overflow -/

/-- What is stored fits the destination. -/
theorem storeInteger_lt {desc : ArgOption} {isNegative : Bool} {v : BitVec 64} {n : Nat}
    {overflow : Bool} (stores : storeInteger desc isNegative v = .stored n overflow) :
    n < 256 ^ desc.destSz := by
  unfold storeInteger at stores
  split at stores <;> cases stores <;> rename_i size <;> rw [size] <;> exact BitVec.isLt _

theorem convertInteger_lt {desc : ArgOption} {word : CString} {n : Nat} {overflow : Bool}
    (converted : convertInteger desc word = .stored n overflow) : n < 256 ^ desc.destSz := by
  unfold convertInteger at converted
  dsimp only at converted
  generalize (if desc.isUnsigned = true then _ else _ : BitVec 64 × CString) = result at converted
  split at converted
  · cases converted
  · exact storeInteger_lt converted

theorem detectsOverflow_iff {desc : ArgOption} (type : desc.type = .integer) {word : CString}
    {n : Nat} {overflow : Bool} (converted : convertInteger desc word = .stored n overflow)
    (number : Int) :
    DetectsOverflow desc word number <-> desc.Printable ∧ (overflow = true <-> ¬Fits desc number) ∧
      (overflow = false -> (n : Int) = number % 2 ^ (8 * desc.destSz)) := by
  constructor
  · rintro ⟨n', overflow', converted', warned, stored, assigns⟩
    cases converted.symm.trans converted'
    refine ⟨?_, warned, stored⟩
    by_contra long
    -- The word alone, behind the name of the program.
    rcases assigns Unit ⟨fun w => ((), w), fun _ => 0, fun _ => 0, fun _ => 0, fun _ => 0⟩
      (fun _ => 0) [[], word] 0 0 rfl with ⟨mem', dies, -⟩
    rw [assignArg_eq, if_neg long] at dies
    cases dies
  · rintro ⟨printable, warned, stored⟩
    refine ⟨n, overflow, converted, warned, stored, ?_⟩
    intro Double lib mem argv i offset there
    refine ⟨mem.write desc.dest (littleEndian desc.destSz n), ?_,
      readNat_eq holds_write (convertInteger_lt converted), fun a outside => ?_⟩
    · rw [assignArg_eq, if_pos printable]
      simp only [assignValue, type, there, bind, Except.bind, converted]
    · exact write_of_outside (by rwa [littleEndian_length])

theorem detects_small {desc : ArgOption}
    (size : desc.destSz = 1 ∨ desc.destSz = 2 ∨ desc.destSz = 4) (negative : Bool)
    (magnitude : Nat) {overflow : Bool}
    (checked : checkOverflowError (8 * desc.destSz) desc.isUnsigned negative
      (userV desc.isUnsigned negative magnitude) = overflow) :
    ((overflow = true <-> ¬Fits desc (denoted negative magnitude)) ∧
      (overflow = false ->
        (((userV desc.isUnsigned negative magnitude).toNat % 2 ^ (8 * desc.destSz) : Nat) : Int) =
          denoted negative magnitude % 2 ^ (8 * desc.destSz))) <->
      (desc.isUnsigned = true -> negative = true ->
        magnitude ≤ 2 ^ 64 - 2 ^ (8 * desc.destSz - 1)) := by
  have bits : 8 * desc.destSz = 8 ∨ 8 * desc.destSz = 16 ∨ 8 * desc.destSz = 32 := by omega
  have warned := checkOverflowError_iff bits desc.isUnsigned negative
    (userV desc.isUnsigned negative magnitude)
  have quiet : overflow = false <-> ¬overflow = true := Bool.not_eq_true overflow ▸ Iff.rfl
  rw [checked] at warned
  rw [quiet, warned]
  unfold Fits
  have bound := (userV desc.isUnsigned negative magnitude).isLt
  have inInt := BitVec.toInt_eq_toNat_cond (userV desc.isUnsigned negative magnitude)
  cases unsigned : desc.isUnsigned <;> rw [unsigned] at bound inInt
  · have value := userV_signed negative magnitude
    simp only [or_true, if_true, Bool.false_eq_true, if_false, false_implies, iff_true]
    cases negative <;> simp only [denoted, if_true, Bool.false_eq_true, if_false] at value ⊢ <;>
      rcases bits with b | b | b <;> rw [b] <;> split at inInt <;> split <;> omega
  · cases negative
    · have value := userV_unsigned magnitude
      simp only [denoted, Bool.false_eq_true, Bool.true_eq_false, or_self, if_false, if_true, false_implies,
        implies_true, iff_true]
      rcases bits with b | b | b <;> rw [b] <;> split <;> omega
    · have value := userV_negated magnitude
      simp only [denoted, true_or, if_true, forall_const]
      rcases bits with b | b | b <;> rw [b] <;> split at inInt <;> split at value <;> split <;> omega

/-- Eight bytes hold every number that fits. -/
theorem stored_eight {desc : ArgOption} (size : desc.destSz = 8) {negative : Bool}
    {magnitude : Nat} (fits : Fits desc (denoted negative magnitude)) :
    ((userV desc.isUnsigned negative magnitude).toNat : Int) =
      denoted negative magnitude % 2 ^ (8 * desc.destSz) := by
  unfold Fits at fits
  have bound := (userV desc.isUnsigned negative magnitude).isLt
  have inInt := BitVec.toInt_eq_toNat_cond (userV desc.isUnsigned negative magnitude)
  rw [size] at fits ⊢
  cases unsigned : desc.isUnsigned <;> rw [unsigned] at bound inInt fits
  · have value := userV_signed negative magnitude
    cases negative <;>
      simp only [denoted, if_true, Bool.false_eq_true, if_false] at value fits ⊢ <;>
      split at inInt <;> split at fits <;> omega
  · cases negative
    · have value := userV_unsigned magnitude
      simp only [denoted, Bool.false_eq_true, if_false, if_true] at fits ⊢
      split at fits <;> omega
    · have value := userV_negated magnitude
      simp only [denoted, if_true] at fits ⊢
      split at value <;> split at fits <;> omega

/-- Exactly these overflows of an `Integer` are detected. -/
theorem assignArg_integer_iff {desc : ArgOption} (type : desc.type = .integer)
    (size : desc.destSz = 1 ∨ desc.destSz = 2 ∨ desc.destSz = 4 ∨ desc.destSz = 8)
    {word : CString} {negative : Bool} {magnitude : Nat}
    (is : IntegerWord word negative magnitude) :
    DetectsOverflow desc word (denoted negative magnitude) <->
      OverflowDetected desc negative magnitude := by
  have converted := convertInteger_word is desc
  unfold OverflowDetected
  by_cases eight : desc.destSz = 8
  · rw [storeInteger_eight eight] at converted
    rw [detectsOverflow_iff type converted, if_pos eight]
    refine and_congr_right fun _ => ?_
    constructor
    · intro detects
      by_contra tooLarge
      exact absurd (detects.1.mpr tooLarge) (by decide)
    · exact fun fits => ⟨iff_of_false (by decide) (not_not.mpr fits), fun _ => stored_eight eight fits⟩
  · have small : desc.destSz = 1 ∨ desc.destSz = 2 ∨ desc.destSz = 4 := by omega
    rw [storeInteger_small small] at converted
    rw [detectsOverflow_iff type converted, if_neg eight]
    exact and_congr_right fun _ => detects_small small negative magnitude rfl

/-- A `uint32_t` variable. -/
def unsignedOption : ArgOption where
  kind := .kindOption
  type := .integer
  argsBegin := ["-n".toList]
  dest := 0
  destSz := 4
  isUnsigned := true
  four := by decide

theorem assignArg_integer_iff_minusFive :
    DetectsOverflow unsignedOption "-5".toList (denoted true 5) <->
      OverflowDetected unsignedOption true 5 :=
  assignArg_integer_iff rfl (.inr (.inr (.inl rfl)))
    (.negative (by decide : "5".toList.mapM (digit 10) = some [5]) (by decide))

/-- `2 ^ 64 - 1` negated is stored as 1, without a warning. -/
theorem negated_stored_as_one :
    IntegerWord "-18446744073709551615".toList true (2 ^ 64 - 1) ∧
      ¬DetectsOverflow unsignedOption "-18446744073709551615".toList
        (denoted true (2 ^ 64 - 1)) := by
  constructor
  · have digits : "18446744073709551615".toList.mapM (digit 10) =
        some [1, 8, 4, 4, 6, 7, 4, 4, 0, 7, 3, 7, 0, 9, 5, 5, 1, 6, 1, 5] := by decide +kernel
    have is := IntegerWord.negative digits (by decide)
    rwa [show Nat.ofDigits 10 _ = 2 ^ 64 - 1 by decide +kernel] at is
  · have converted : convertInteger unsignedOption "-18446744073709551615".toList =
        .stored 1 false := by decide +kernel
    rw [detectsOverflow_iff rfl converted]
    intro detects
    exact absurd (detects.2.1.mpr (by decide)) (by decide)

end Util
end Autolock
