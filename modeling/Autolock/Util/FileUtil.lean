import Autolock.Data.Loop
import Mathlib.Algebra.Group.Nat.Defs
import Mathlib.Data.List.Basic
import Mathlib.Order.Nat

namespace Autolock
namespace Util

open Data

/-!
# `I_ensure_write`

The loop around `write` that is meant to go on after a short write.  It adds the
number of bytes that it wanted to write to its total, not the number of those
written, so that the first bytes that are accepted end it.

What the system calls return is a schedule.  A call accepts at most what it is
given, and at most what its result can express.
-/

inductive WriteResult where
  | wrote (n : Nat)
  | again
  | error
  deriving DecidableEq, Repr

/-- The variables of the loop, and what its system calls have been given, have
accepted and have returned. -/
structure EnsureWrite where
  calls : Nat
  nwrote : BitVec 64
  file : List UInt8
  ranges : List (Int × Nat)
  results : List Int
  deriving DecidableEq, Repr

namespace EnsureWrite

/-- Bytes that a call is willing to accept, of those that it is given. -/
def accepted (n len : Nat) : Nat :=
  min n (min len (2 ^ 63 - 1))

/-- The end of the loop: its return, or that of the program. -/
inductive End where
  | returned (s : EnsureWrite)
  | died (s : EnsureWrite)

variable (schedule : Nat -> WriteResult) (buf : List UInt8) (count : BitVec 64)

def pass (s : EnsureWrite) : Pass EnsureWrite End :=
  if s.nwrote = count then .done (.returned s)
  else
    let len := (count - s.nwrote).toNat
    let called :=
      { s with calls := s.calls + 1, ranges := s.ranges ++ [(s.nwrote.toInt, len)] }
    match schedule s.calls with
    | .error => .done (.died called)
    | .again => .again { called with results := called.results ++ [-1] }
    | .wrote n =>
        let ret := accepted n len
        let returned := { called with results := called.results ++ [(ret : Int)] }
        if ret = 0 then .done (.returned returned)
        else .again { returned with
          nwrote := s.nwrote + count
          file := s.file ++ (buf.drop s.nwrote.toInt.toNat).take ret }

def start : EnsureWrite := ⟨0, 0, [], [], []⟩

/-- What has been accepted begins the buffer, and no call has been given anything else. -/
structure Faithful (s : EnsureWrite) : Prop where
  file : s.file <+: buf
  ranges : forall range, range ∈ s.ranges -> 0 ≤ range.1 ∧ range.1 + range.2 ≤ count.toNat

/-- The loop ends, and returns the number of the bytes accepted; these are all,
unless a call has returned zero. -/
def Delivers : Prop :=
  exists result, Returns (pass schedule buf count) start result ∧
    match result with
    | .died s => Faithful buf count s
    | .returned s => Faithful buf count s ∧ s.nwrote.toInt = s.file.length ∧
        (s.file.length = count.toNat ∨ 0 ∈ s.results)

/-- The first call that is not told to try again fails, accepts nothing or everything. -/
def FirstIsAll : Prop :=
  count = 0 ∨ forall k n, (forall j, j < k -> schedule j = .again) -> schedule k = .wrote n ->
    accepted n count.toNat = 0 ∨ accepted n count.toNat = count.toNat

/-! ## Until something is accepted -/

/-- The loop after some calls that all had to be repeated. -/
def retried (k : Nat) : EnsureWrite :=
  ⟨k, 0, [], List.replicate k (0, count.toNat), List.replicate k (-1)⟩

variable {schedule buf count}

/-- A pass before anything has been accepted. -/
theorem pass_retried (nonempty : count ≠ 0) (k : Nat) :
    pass schedule buf count (retried count k) =
      match schedule k with
      | .error => .done (.died { retried count (k + 1) with results := List.replicate k (-1) })
      | .again => .again (retried count (k + 1))
      | .wrote n =>
          let ret := accepted n count.toNat
          let returned :=
            { retried count (k + 1) with results := List.replicate k (-1) ++ [(ret : Int)] }
          if ret = 0 then .done (.returned returned)
          else .again { returned with nwrote := count, file := buf.take ret } := by
  unfold pass retried
  dsimp only
  rw [if_neg (Ne.symm nonempty)]
  have toInt : (0 : BitVec 64).toInt = 0 := rfl
  have rest : count - 0 = count := BitVec.sub_zero count
  have total : 0 + count = count := BitVec.zero_add count
  simp only [List.replicate_succ', toInt, rest, total, List.nil_append, Int.toNat_zero,
    List.drop_zero]

theorem continues_retried {k : Nat} (nonempty : count ≠ 0)
    (again : forall j, j < k -> schedule j = .again) :
    Continues (pass schedule buf count) start (retried count k) := by
  induction k with
  | zero => exact .refl _
  | succ k inductionHypothesis =>
      have turn := @pass_retried schedule buf count nonempty k
      rw [again k (Nat.lt_succ_self k)] at turn
      exact (inductionHypothesis fun j less => again j (Nat.lt_succ_of_lt less)).trans
        (.again turn (.refl _))

theorem ranges_retried (k : Nat) (range : Int × Nat) (member : range ∈ (retried count k).ranges) :
    0 ≤ range.1 ∧ range.1 + range.2 ≤ count.toNat := by
  rw [(List.mem_replicate.mp member).2]
  exact ⟨Int.le_refl 0, by simp⟩

theorem faithful_retried {file : List UInt8} (begins : file <+: buf) (k : Nat) (nwrote : BitVec 64)
    (results : List Int) :
    Faithful buf count ⟨k + 1, nwrote, file, (retried count (k + 1)).ranges, results⟩ :=
  ⟨begins, fun range member => ranges_retried (k + 1) range member⟩

/-- Once something has been accepted the loop ends, and claims to have written everything. -/
theorem delivers_wrote_iff {k n : Nat} (size : buf.length = count.toNat) (nonempty : count ≠ 0)
    (again : forall j, j < k -> schedule j = .again) (wrote : schedule k = .wrote n)
    (some : accepted n count.toNat ≠ 0) :
    Delivers schedule buf count <-> accepted n count.toNat = count.toNat := by
  have turn := @pass_retried schedule buf count nonempty k
  rw [wrote] at turn
  dsimp only at turn
  rw [if_neg some] at turn
  have decided : forall result, Returns (pass schedule buf count) start result <->
      result = .returned ⟨k + 1, count, buf.take (accepted n count.toNat),
        (retried count (k + 1)).ranges, List.replicate k (-1) ++ [(accepted n count.toNat : Int)]⟩ :=
    fun _ => (continues_retried nonempty again).returns_iff.trans
      ((returns_again_iff turn).trans (returns_done_iff (if_pos rfl)))
  unfold Delivers
  simp only [decided, exists_eq_left]
  have small : accepted n count.toNat ≤ count.toNat := by
    unfold accepted
    omega
  have limit : accepted n count.toNat ≤ 2 ^ 63 - 1 := by
    unfold accepted
    omega
  have length : (buf.take (accepted n count.toNat)).length = accepted n count.toNat := by
    rw [List.length_take, size]
    exact Nat.min_eq_left small
  have noZero : 0 ∉ List.replicate k (-1 : Int) ++ [(accepted n count.toNat : Int)] := by
    intro member
    rcases List.mem_append.mp member with repeated | last
    · exact absurd (List.mem_replicate.mp repeated).2 (by decide)
    · exact some (Int.ofNat_eq_zero.mp (List.mem_singleton.mp last).symm)
  constructor
  · rintro ⟨_, _, all | zero⟩
    · exact length.symm.trans all
    · exact absurd zero noZero
  · intro all
    refine ⟨faithful_retried (List.take_prefix _ _) _ _ _, ?_, .inl (length.trans all)⟩
    rw [length, BitVec.toInt_eq_toNat_of_lt (by omega), all]

/-- What the loop does is decided by the first call that need not be repeated. -/
theorem delivers_iff_of_first {k : Nat} (size : buf.length = count.toNat) (nonempty : count ≠ 0)
    (again : forall j, j < k -> schedule j = .again) (first : schedule k ≠ .again) :
    Delivers schedule buf count <-> forall n, schedule k = .wrote n ->
      accepted n count.toNat = 0 ∨ accepted n count.toNat = count.toNat := by
  have continues := @continues_retried schedule buf count k nonempty again
  have turn := @pass_retried schedule buf count nonempty k
  cases result : schedule k with
  | again => exact absurd result first
  | error =>
      rw [result] at turn
      refine iff_of_true ⟨_, continues.returns_iff.mpr ((returns_done_iff turn).mpr rfl), ?_⟩ nofun
      exact faithful_retried List.nil_prefix _ _ _
  | wrote n =>
      by_cases none : accepted n count.toNat = 0
      · rw [result] at turn
        dsimp only at turn
        rw [if_pos none] at turn
        refine iff_of_true ⟨_, continues.returns_iff.mpr ((returns_done_iff turn).mpr rfl),
          faithful_retried List.nil_prefix _ _ _, rfl, .inr ?_⟩ fun n' same => ?_
        · rw [none]
          exact List.mem_append_right _ (List.mem_singleton_self _)
        · cases same
          exact .inl none
      · rw [delivers_wrote_iff size nonempty again result none]
        constructor
        · intro all n' same
          cases same
          exact .inr all
        · exact fun allOrNothing => (allOrNothing n rfl).resolve_left none

/-- `I_ensure_write` delivers the buffer exactly if the first call that is not told to
try again does all of it, does nothing or fails. -/
theorem delivers_iff (size : buf.length = count.toNat)
    (finitely : exists k, forall j, k ≤ j -> schedule j ≠ .again) :
    Delivers schedule buf count <-> FirstIsAll schedule count := by
  by_cases nonempty : count = 0
  · have turn : pass schedule buf count start = .done (.returned start) := if_pos nonempty.symm
    refine iff_of_true ⟨_, (returns_done_iff turn).mpr rfl,
      ⟨List.nil_prefix, fun _ member => (List.not_mem_nil member).elim⟩, rfl, .inl ?_⟩
      (.inl nonempty)
    rw [nonempty]
    rfl
  · rcases finitely with ⟨k, never⟩
    have exists_first : exists k, schedule k ≠ .again := ⟨k, never k (Nat.le_refl k)⟩
    have again : forall j, j < Nat.find exists_first -> schedule j = .again :=
      fun j less => not_not.mp (Nat.find_min exists_first less)
    rw [delivers_iff_of_first size nonempty again (Nat.find_spec exists_first)]
    constructor
    · intro allOrNothing
      refine .inr fun j n before wrote => ?_
      have same : j = Nat.find exists_first := by
        refine Nat.le_antisymm (Nat.le_of_not_lt fun less => ?_)
          (Nat.find_min' exists_first (by rw [wrote]; nofun))
        exact Nat.find_spec exists_first (before _ less)
      exact allOrNothing n (same ▸ wrote)
    · intro firstIsAll n wrote
      exact (firstIsAll.resolve_left nonempty) _ n again wrote

theorem delivers_iff_twoBytes :
    Delivers (fun _ => .wrote 2) [1, 2] 2 <-> FirstIsAll (fun _ => .wrote 2) 2 :=
  delivers_iff rfl ⟨0, fun _ _ => nofun⟩

/-- After one of two bytes the loop ends and says that it has written both. -/
theorem short_write_lost : ¬Delivers (fun _ => .wrote 1) [1, 2] 2 := by
  rintro ⟨result, returns, ended⟩
  have said : loop (pass (fun _ => .wrote 1) [1, 2] 2) 2 start =
      some (.returned ⟨1, 2, [1], [(0, 2)], [1]⟩) := rfl
  rw [Returns.unique returns ⟨2, said⟩] at ended
  exact absurd ended.2.1 (by decide)

end EnsureWrite

end Util
end Autolock
