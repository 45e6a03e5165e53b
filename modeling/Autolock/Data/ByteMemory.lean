import Mathlib.Algebra.GroupWithZero.Nat
import Mathlib.Data.Nat.Basic

namespace Autolock
namespace Data

/-!
# Memory, byte by byte

A memory has a byte at every address.  `Holds` says which bytes lie at an
address; numbers of several bytes are stored with the least significant byte
first.
-/

abbrev ByteMemory := Nat -> UInt8

namespace ByteMemory

/-- Store the bytes one after the other from the address on. -/
def write (mem : ByteMemory) (p : Nat) (bytes : List UInt8) : ByteMemory :=
  fun a => if p ≤ a then bytes[a - p]?.getD (mem a) else mem a

def read (mem : ByteMemory) (p n : Nat) : List UInt8 :=
  (List.range n).map fun i => mem (p + i)

/-- The bytes that lie at the address. -/
def Holds (mem : ByteMemory) (p : Nat) (bytes : List UInt8) : Prop :=
  mem.read p bytes.length = bytes

instance (mem : ByteMemory) (p : Nat) (bytes : List UInt8) : Decidable (mem.Holds p bytes) :=
  inferInstanceAs (Decidable (_ = _))

variable {mem mem' : ByteMemory} {p q n : Nat} {bytes more : List UInt8}

@[simp] theorem read_length : (mem.read p n).length = n := by
  simp [read]

theorem holds_read (mem : ByteMemory) (p n : Nat) : mem.Holds p (mem.read p n) := by
  rw [Holds, read_length]

theorem holds_iff : mem.Holds p bytes <-> forall i byte, bytes[i]? = some byte -> mem (p + i) = byte := by
  rw [Holds, List.ext_getElem?_iff]
  refine forall_congr' fun i => ?_
  by_cases inside : i < bytes.length
  · simp [read, inside]
  · have outside : bytes[i]? = none := List.getElem?_eq_none (Nat.not_lt.mp inside)
    simp [read, inside]

@[simp] theorem holds_nil : mem.Holds p [] :=
  rfl

theorem holds_append :
    mem.Holds p (bytes ++ more) <-> mem.Holds p bytes ∧ mem.Holds (p + bytes.length) more := by
  have split : mem.read p (bytes ++ more).length =
      mem.read p bytes.length ++ mem.read (p + bytes.length) more.length := by
    simp only [read, List.length_append, List.range_add, List.map_append, List.map_map,
      Function.comp_def, Nat.add_assoc]
  rw [Holds, split]
  constructor
  · intro same
    exact List.append_inj same read_length
  · rintro ⟨first, second⟩
    rw [first, second]

theorem write_of_lt {a : Nat} (before : a < p) : mem.write p bytes a = mem a :=
  if_neg (Nat.not_le.mpr before)

theorem write_of_le {a : Nat} (after : p + bytes.length ≤ a) : mem.write p bytes a = mem a := by
  have outside : bytes[a - p]? = none := List.getElem?_eq_none (by omega)
  simp [write, outside]

theorem write_of_outside {a : Nat} (outside : a < p ∨ p + bytes.length ≤ a) :
    mem.write p bytes a = mem a := by
  rcases outside with before | after
  · exact write_of_lt before
  · exact write_of_le after

@[simp] theorem write_nil : mem.write p [] = mem :=
  funext fun a => by simp [write]

/-- What is read depends on the bytes there alone. -/
theorem read_eq_iff :
    mem.read p n = mem'.read p n <-> forall a, p ≤ a -> a < p + n -> mem a = mem' a := by
  simp only [read, List.map_inj_left, List.mem_range]
  constructor
  · intro same a above below
    rcases Nat.exists_eq_add_of_le above with ⟨i, rfl⟩
    exact same i (Nat.lt_of_add_lt_add_left below)
  · exact fun same i less => same (p + i) (Nat.le_add_right p i) (Nat.add_lt_add_left less p)

theorem read_write_of_outside (outside : p + n ≤ q ∨ q + bytes.length ≤ p) :
    (mem.write q bytes).read p n = mem.read p n :=
  read_eq_iff.mpr fun a above below => write_of_outside (by omega)

/-- The same bytes are stored among bytes that are the same. -/
theorem read_write_congr (same : mem.read p n = mem'.read p n) :
    (mem.write p bytes).read p n = (mem'.write p bytes).read p n := by
  rw [read_eq_iff] at same ⊢
  intro a above below
  simp only [write, if_pos above, same a above below]

theorem holds_write : (mem.write p bytes).Holds p bytes := by
  rw [holds_iff]
  intro i byte at_i
  simp [write, at_i]

/-- Two memories that agree on the bytes hold the same there. -/
theorem Holds.congr (holds : mem.Holds p bytes)
    (same : forall a, p ≤ a -> a < p + bytes.length -> mem' a = mem a) : mem'.Holds p bytes := by
  rw [holds_iff] at holds ⊢
  intro i byte at_i
  have inside : i < bytes.length := (List.getElem?_eq_some_iff.mp at_i).1
  rw [same (p + i) (Nat.le_add_right _ _) (Nat.add_lt_add_left inside p), holds i byte at_i]

/-- What lies elsewhere is not touched by a store. -/
theorem Holds.write (holds : mem.Holds p bytes)
    (apart : p + bytes.length ≤ q ∨ q + more.length ≤ p) : (mem.write q more).Holds p bytes := by
  exact holds.congr fun a above below => write_of_outside (by omega)

/-! ## Numbers -/

/-- The lowest bytes of a number, the least significant one first. -/
def littleEndian : Nat -> Nat -> List UInt8
  | 0, _ => []
  | width + 1, value => UInt8.ofNat value :: littleEndian width (value / 256)

/-- The number that the bytes are. -/
def value : List UInt8 -> Nat
  | [] => 0
  | byte :: bytes => byte.toNat + 256 * value bytes

@[simp] theorem littleEndian_length (width number : Nat) :
    (littleEndian width number).length = width := by
  induction width generalizing number with
  | zero => rfl
  | succ width inductionHypothesis =>
      rw [littleEndian, List.length_cons, inductionHypothesis]

theorem value_littleEndian (width number : Nat) :
    value (littleEndian width number) = number % 256 ^ width := by
  induction width generalizing number with
  | zero => rw [littleEndian, value, Nat.pow_zero, Nat.mod_one]
  | succ width inductionHypothesis =>
      have low : (UInt8.ofNat number).toNat = number % 256 := UInt8.toNat_ofNat'
      rw [littleEndian, value, inductionHypothesis, low, Nat.pow_succ', Nat.mod_mul]

/-- The number of so many bytes at an address. -/
def readNat (mem : ByteMemory) (p width : Nat) : Nat :=
  value (mem.read p width)

/-- A number that fits is read as it was stored. -/
theorem readNat_eq {width number : Nat} (holds : mem.Holds p (littleEndian width number))
    (fits : number < 256 ^ width) : mem.readNat p width = number := by
  rw [Holds, littleEndian_length] at holds
  rw [readNat, holds, value_littleEndian, Nat.mod_eq_of_lt fits]

/-- A number behind a store is not touched. -/
theorem readNat_write_of_le {width : Nat} (after : p + bytes.length ≤ q) :
    (mem.write p bytes).readNat q width = mem.readNat q width := by
  unfold readNat read
  refine congrArg value (List.map_congr_left fun i _ => ?_)
  exact write_of_le (Nat.le_trans after (Nat.le_add_right q i))

/-- Numbers of the same width next to each other. -/
def array (width : Nat) (numbers : List Nat) : List UInt8 :=
  numbers.flatMap (littleEndian width)

@[simp] theorem array_length (width : Nat) (numbers : List Nat) :
    (array width numbers).length = width * numbers.length := by
  induction numbers with
  | nil => rfl
  | cons number numbers inductionHypothesis =>
      rw [array, List.flatMap_cons, List.length_append, littleEndian_length, List.length_cons,
        Nat.mul_succ, Nat.add_comm]
      exact congrArg (· + width) inductionHypothesis

theorem readNat_array {width : Nat} {numbers : List Nat} (holds : mem.Holds p (array width numbers))
    (fit : forall number, number ∈ numbers -> number < 256 ^ width) {i : Nat}
    (inside : i < numbers.length) : mem.readNat (p + width * i) width = numbers[i] := by
  induction numbers generalizing p i with
  | nil => cases inside
  | cons number numbers inductionHypothesis =>
      rw [List.forall_mem_cons] at fit
      rw [array, List.flatMap_cons, holds_append, littleEndian_length] at holds
      cases i with
      | zero => exact readNat_eq holds.1 fit.1
      | succ i =>
          have next := inductionHypothesis holds.2 fit.2 (Nat.lt_of_succ_lt_succ inside)
          rwa [Nat.add_assoc, Nat.add_comm width, ← Nat.mul_succ] at next

end ByteMemory

end Data
end Autolock
