import Mathlib.Order.Basic

namespace Autolock
namespace Data

universe u v

/-!
# Loops that may go on forever

A loop is given by its body, which either goes around again with a new state or
leaves with a result.  It is run with a bound on the number of passes; the loop
returns if some bound is enough.
-/

inductive Pass (State : Type u) (Result : Type v) where
  | again (s : State)
  | done (result : Result)

variable {State : Type u} {Result : Type v}

/-- The result of a loop that leaves within the given number of passes. -/
def loop (body : State -> Pass State Result) : Nat -> State -> Option Result
  | 0, _ => none
  | passes + 1, s =>
      match body s with
      | .again s' => loop body passes s'
      | .done result => some result

def Returns (body : State -> Pass State Result) (s : State) (result : Result) : Prop :=
  exists passes, loop body passes s = some result

/-- The loop never leaves. -/
def Diverges (body : State -> Pass State Result) (s : State) : Prop :=
  forall passes, loop body passes s = none

variable {body : State -> Pass State Result} {s s' : State} {result result' : Result}

theorem loop_again (passes : Nat) (goes : body s = .again s') :
    loop body (passes + 1) s = loop body passes s' := by
  rw [loop, goes]

theorem loop_done (passes : Nat) (leaves : body s = .done result) :
    loop body (passes + 1) s = some result := by
  rw [loop, leaves]

theorem Returns.done (leaves : body s = .done result) : Returns body s result :=
  ⟨1, loop_done 0 leaves⟩

theorem Returns.again (goes : body s = .again s') (returns : Returns body s' result) :
    Returns body s result := by
  rcases returns with ⟨passes, returns⟩
  exact ⟨passes + 1, by rw [loop_again passes goes, returns]⟩

theorem returns_again_iff (goes : body s = .again s') :
    Returns body s result <-> Returns body s' result := by
  constructor
  · rintro ⟨passes, returns⟩
    cases passes with
    | zero => cases returns
    | succ passes => exact ⟨passes, (loop_again passes goes).symm.trans returns⟩
  · exact Returns.again goes

theorem returns_done_iff (leaves : body s = .done result) :
    Returns body s result' <-> result' = result := by
  constructor
  · rintro ⟨passes, returns⟩
    cases passes with
    | zero => cases returns
    | succ passes =>
        rw [loop_done passes leaves] at returns
        exact (Option.some.inj returns).symm
  · rintro rfl
    exact Returns.done leaves

/-- Some passes lead from one state to another. -/
inductive Continues (body : State -> Pass State Result) : State -> State -> Prop
  | refl (s : State) : Continues body s s
  | again {s s' s'' : State} (goes : body s = .again s') (rest : Continues body s' s'') :
      Continues body s s''

theorem Continues.trans {s'' : State} (first : Continues body s s')
    (rest : Continues body s' s'') : Continues body s s'' := by
  induction first with
  | refl => exact rest
  | again goes _ inductionHypothesis => exact .again goes (inductionHypothesis rest)

/-- What the loop returns is decided later. -/
theorem Continues.returns_iff (continues : Continues body s s') :
    Returns body s result <-> Returns body s' result := by
  induction continues with
  | refl => exact Iff.rfl
  | again goes _ inductionHypothesis =>
      exact (returns_again_iff goes).trans inductionHypothesis

/-- The rule for divergence: an invariant under which the body goes around. -/
theorem diverges_of_invariant {inv : State -> Prop}
    (goes : forall s, inv s -> exists s', body s = .again s' ∧ inv s') (holds : inv s) :
    Diverges body s := by
  intro passes
  induction passes generalizing s with
  | zero => rfl
  | succ passes inductionHypothesis =>
      rcases goes s holds with ⟨s', turn, holds'⟩
      rw [loop_again passes turn]
      exact inductionHypothesis holds'

theorem not_diverges_iff : ¬Diverges body s <-> exists result, Returns body s result := by
  simp only [Diverges, Returns, not_forall, Option.ne_none_iff_exists']
  exact exists_comm

/-- More passes do not change the result. -/
theorem loop_mono {passes more : Nat} (enough : passes ≤ more)
    (returns : loop body passes s = some result) : loop body more s = some result := by
  induction passes generalizing s more with
  | zero => cases returns
  | succ passes inductionHypothesis =>
      cases more with
      | zero => cases enough
      | succ more =>
          rcases turn : body s with s' | result'
          · rw [loop_again _ turn] at returns ⊢
            exact inductionHypothesis (Nat.le_of_succ_le_succ enough) returns
          · rw [loop_done _ turn] at returns ⊢
            exact returns

theorem Returns.unique (first : Returns body s result) (second : Returns body s result') :
    result = result' := by
  rcases first with ⟨passes, first⟩
  rcases second with ⟨more, second⟩
  rcases Nat.le_total passes more with less | less
  · exact Option.some.inj ((loop_mono less first).symm.trans second)
  · exact Option.some.inj (first.symm.trans (loop_mono less second))

end Data
end Autolock
