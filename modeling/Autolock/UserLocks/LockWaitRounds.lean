import Autolock.Data.Loop
import Autolock.UserLocks.LockWait
import Mathlib.Algebra.Group.Nat.Defs
import Mathlib.Data.Nat.Find

namespace Autolock
namespace UserLocks

open Data

/-!
# The rounds of `lock_wait`

The macro with its two loops, of which the constant `wait_iters` chooses one.
The outcome of the recheck expression in every round is given.
-/

namespace LockWait

/-- How the macro is left: by the jump to `done`, or at its end. -/
inductive Exit where
  | done
  | fallsThrough
  deriving DecidableEq, Repr

structure Result where
  rounds : Nat
  exit : Exit
  deriving DecidableEq, Repr

/-- The rounds that have been completed, and the counter. -/
structure Bounded where
  rounds : Nat
  tmpWaitIters : UInt32
  deriving DecidableEq, Repr

variable (recheck : Nat -> Bool)

/-- One round of the loop for a bound that is not 0. -/
def boundedPass (s : Bounded) : Pass Bounded Result :=
  if recheck s.rounds then .done ⟨s.rounds + 1, .done⟩
  else
    match lockWaitNext s.tmpWaitIters with
    | none => .done ⟨s.rounds + 1, .fallsThrough⟩
    | some tmpWaitIters => .again ⟨s.rounds + 1, tmpWaitIters⟩

/-- One round of the loop without a bound. -/
def endlessPass (rounds : Nat) : Pass Nat Result :=
  if recheck rounds then .done ⟨rounds + 1, .done⟩ else .again (rounds + 1)

/-- The macro `lock_wait` is left. -/
def Leaves (waitIters : Nat) (result : Result) : Prop :=
  if waitIters ≠ 0 then
    Returns (boundedPass recheck) ⟨0, lockWaitStart (UInt32.ofNat waitIters)⟩ result
  else Returns (endlessPass recheck) 0 result

/-! ## What is expected -/

/-- The recheck of a round succeeds, and none before it does. -/
def FirstSuccess (k : Nat) : Prop :=
  recheck k = true ∧ forall j, j < k -> recheck j = false

/-- A jump after the first success, if it comes in time, and none otherwise; the
bound 0 stands for no bound. -/
def Expected (waitIters : Nat) (result : Result) : Prop :=
  (exists k, FirstSuccess recheck k ∧ (waitIters = 0 ∨ k < waitIters) ∧ result = ⟨k + 1, .done⟩) ∨
    waitIters ≠ 0 ∧ (forall k, k < waitIters -> recheck k = false) ∧
      result = ⟨waitIters, .fallsThrough⟩

def AsExpected (waitIters : Nat) : Prop :=
  forall result, Leaves recheck waitIters result <-> Expected recheck waitIters result

/-! ## The two loops -/

variable {recheck}

/-- Without a bound the rounds go on until the first success. -/
theorem endless_continues {k : Nat} (fails : forall j, j < k -> recheck j = false) :
    Continues (endlessPass recheck) 0 k := by
  induction k with
  | zero => exact .refl _
  | succ k inductionHypothesis =>
      have turn : endlessPass recheck k = .again (k + 1) := by
        rw [endlessPass, fails k (Nat.lt_succ_self k)]
        rfl
      exact (inductionHypothesis fun j less => fails j (Nat.lt_succ_of_lt less)).trans
        (.again turn (.refl _))

theorem endless_returns_iff {result : Result} :
    Returns (endlessPass recheck) 0 result <->
      exists k, FirstSuccess recheck k ∧ result = ⟨k + 1, .done⟩ := by
  constructor
  · intro returns
    by_cases some : exists k, recheck k = true
    · have first : FirstSuccess recheck (Nat.find some) :=
        ⟨Nat.find_spec some, fun j less => Bool.eq_false_iff.mpr (Nat.find_min some less)⟩
      refine ⟨_, first, ?_⟩
      rw [(endless_continues first.2).returns_iff] at returns
      refine (returns_done_iff ?_).mp returns
      rw [endlessPass, first.1]
      rfl
    · have diverges : Diverges (endlessPass recheck) 0 := by
        have goesOn : forall k, True -> exists k', endlessPass recheck k = .again k' ∧ True := by
          intro k _
          refine ⟨k + 1, ?_, trivial⟩
          rw [endlessPass, if_neg fun success => some ⟨k, success⟩]
        exact diverges_of_invariant goesOn trivial
      exact absurd ⟨result, returns⟩ fun returns => not_diverges_iff.mpr returns diverges
  · rintro ⟨k, first, rfl⟩
    refine (endless_continues first.2).returns_iff.mpr (.done ?_)
    rw [endlessPass, first.1]
    rfl

/-- The first round of the loop with a bound decides, unless the bound is 1. -/
theorem bounded_of_success (success : recheck 0 = true) (tmpWaitIters : UInt32) :
    boundedPass recheck ⟨0, tmpWaitIters⟩ = .done ⟨1, .done⟩ := by
  rw [boundedPass, success]
  rfl

theorem bounded_of_failure {waitIters : UInt32} (fails : recheck 0 = false) (many : waitIters ≠ 1) :
    boundedPass recheck ⟨0, lockWaitStart waitIters⟩ = .done ⟨1, .fallsThrough⟩ := by
  simp only [boundedPass, fails, lockWaitNext_start many]
  rfl

/-- With the bound 1 the counter is 0 after the first round, and a second one follows. -/
theorem bounded_one_of_failure (fails : recheck 0 = false) {result : Result}
    (returns : Returns (boundedPass recheck) ⟨0, lockWaitStart 1⟩ result) : result.rounds = 2 := by
  have turn : boundedPass recheck ⟨0, lockWaitStart 1⟩ = .again ⟨1, 0⟩ := by
    simp only [boundedPass, fails]
    rfl
  rw [returns_again_iff turn] at returns
  cases second : recheck 1 with
  | true =>
      have leaves : boundedPass recheck ⟨1, 0⟩ = .done ⟨2, .done⟩ := by
        simp only [boundedPass, second]
        rfl
      rw [(returns_done_iff leaves).mp returns]
  | false =>
      have leaves : boundedPass recheck ⟨1, 0⟩ = .done ⟨2, .fallsThrough⟩ := by
        simp only [boundedPass, second]
        rfl
      rw [(returns_done_iff leaves).mp returns]

theorem asExpected_of_success {waitIters : Nat} (positive : 0 < waitIters)
    (success : recheck 0 = true) : AsExpected recheck waitIters := by
  intro result
  rw [Leaves, if_pos (Nat.ne_of_gt positive), returns_done_iff (bounded_of_success success _)]
  constructor
  · rintro rfl
    exact Or.inl ⟨0, ⟨success, fun j less => absurd less (Nat.not_lt_zero j)⟩, Or.inr positive, rfl⟩
  · rintro (⟨k, ⟨-, fails⟩, -, rfl⟩ | ⟨-, fails, -⟩)
    · rcases Nat.eq_zero_or_pos k with rfl | later
      · rfl
      · cases success.symm.trans (fails 0 later)
    · cases success.symm.trans (fails 0 positive)

/-- A failure in the first round ends the loop too early, or, with the bound 1, too late. -/
theorem not_asExpected_of_failure {waitIters : Nat} (constant : waitIters < 2 ^ 31)
    (nonzero : waitIters ≠ 0) (fails : recheck 0 = false) : ¬AsExpected recheck waitIters := by
  intro expected
  by_cases one : waitIters = 1
  · subst one
    have leaves := (expected ⟨1, .fallsThrough⟩).mpr
      (Or.inr ⟨nonzero, fun k less => Nat.lt_one_iff.mp less ▸ fails, rfl⟩)
    rw [Leaves, if_pos nonzero] at leaves
    cases bounded_one_of_failure fails leaves
  · have many : UInt32.ofNat waitIters ≠ 1 := by
      intro same
      have := congrArg UInt32.toNat same
      rw [UInt32.toNat_ofNat_of_lt' (constant.trans (by decide))] at this
      exact one this
    have leaves : Leaves recheck waitIters ⟨1, .fallsThrough⟩ := by
      rw [Leaves, if_pos nonzero]
      exact .done (bounded_of_failure fails many)
    rcases (expected _).mp leaves with ⟨k, -, -, same⟩ | ⟨-, -, same⟩
    · cases same
    · exact one (Result.mk.inj same).1.symm

/-- The loops do what is expected of them exactly if there is no bound, or the
first recheck succeeds already. -/
theorem lockWait_asExpected_iff {waitIters : Nat} (constant : waitIters < 2 ^ 31) :
    AsExpected recheck waitIters <-> waitIters = 0 ∨ recheck 0 = true := by
  rcases Nat.eq_zero_or_pos waitIters with rfl | positive
  · refine iff_of_true (fun result => ?_) (Or.inl rfl)
    rw [Leaves, if_neg (not_not.mpr rfl), endless_returns_iff]
    simp [Expected]
  have nonzero : waitIters ≠ 0 := Nat.ne_of_gt positive
  cases first : recheck 0 with
  | true => exact iff_of_true (asExpected_of_success positive first) (Or.inr rfl)
  | false => exact iff_of_false (not_asExpected_of_failure constant nonzero first) (by simp [nonzero])

/-- A bounded wait whose first recheck succeeds, and one that should have waited longer. -/
theorem asExpected_atOnce : AsExpected (fun _ => true) 128 :=
  (lockWait_asExpected_iff (by decide)).mpr (Or.inr rfl)

theorem secondSuccess_not_awaited : ¬AsExpected (fun k => k = 1) 128 :=
  not_asExpected_of_failure (by decide) (by decide) rfl

end LockWait

end UserLocks
end Autolock
