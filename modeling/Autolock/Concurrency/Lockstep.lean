import Autolock.Concurrency.Threads

namespace Autolock
namespace Concurrency

/-!
# One program that keeps pace with another

Two programs with the same actions and events may represent their states
differently.  If one step of the first is one step of the second on the states that
represent the same, then both have the same runs.
-/

universe u

variable {Tid Shared Local Shared' Local' Action Event : Type u}

/-- The states of a program as states of another one that takes the same steps. -/
structure Lockstep (program : Program Tid Shared Local Action Event)
    (other : Program Tid Shared' Local' Action Event) where
  shared : Shared -> Shared'
  thread : Local -> Local'
  step : forall t action s l, other.step t action (shared s) (thread l) =
    (program.step t action s l).map fun result =>
      (shared result.1, thread result.2.1, result.2.2)

namespace Lockstep

variable {program : Program Tid Shared Local Action Event}
  {other : Program Tid Shared' Local' Action Event}

def machine (lockstep : Lockstep program other) (s : Machine Tid Shared Local) :
    Machine Tid Shared' Local' where
  shared := lockstep.shared s.shared
  thread := fun t => lockstep.thread (s.thread t)

variable [DecidableEq Tid]

theorem next_machine (lockstep : Lockstep program other) (s : Machine Tid Shared Local) (t : Tid)
    (action : Action) : other.next (lockstep.machine s) t action =
      (program.next s t action).map fun result => (lockstep.machine result.1, result.2) := by
  simp only [Program.next, machine, lockstep.step, Option.map_map]
  refine congrArg (Option.map · _) (funext fun result => ?_)
  simp only [Function.comp_apply, Prod.mk.injEq, Machine.mk.injEq, true_and, and_true]
  exact (Function.comp_update lockstep.thread s.thread t result.2.1).symm

variable {init : Machine Tid Shared Local -> Prop} {init' : Machine Tid Shared' Local' -> Prop}
  {trace : List (Tid × Event)}

theorem run (lockstep : Lockstep program other)
    (initially : forall s, init s -> init' (lockstep.machine s)) {s : Machine Tid Shared Local}
    (run : (program.system init).Run TransitionSystem.unguarded trace s) :
    (other.system init').Run TransitionSystem.unguarded trace (lockstep.machine s) := by
  induction run with
  | start initial => exact .start (initially _ initial)
  | step _ moved _ inductionHypothesis =>
      rcases moved with ⟨action, enabled⟩
      refine inductionHypothesis.step ⟨action, ?_⟩ trivial
      rw [lockstep.next_machine, enabled]
      rfl

/-- The other program has no more runs. -/
theorem run_back (lockstep : Lockstep program other)
    (initially : forall s', init' s' -> exists s, init s ∧ lockstep.machine s = s')
    {s' : Machine Tid Shared' Local'}
    (run : (other.system init').Run TransitionSystem.unguarded trace s') :
    exists s, (program.system init).Run TransitionSystem.unguarded trace s ∧
      lockstep.machine s = s' := by
  induction run with
  | start initial =>
      rcases initially _ initial with ⟨s, initial', same⟩
      exact ⟨s, .start initial', same⟩
  | step _ moved _ inductionHypothesis =>
      rcases inductionHypothesis with ⟨s, run, rfl⟩
      rcases moved with ⟨action, enabled⟩
      rw [lockstep.next_machine, Option.map_eq_some_iff] at enabled
      rcases enabled with ⟨⟨s', event⟩, enabled, same⟩
      rcases Prod.mk.inj same with ⟨rfl, rfl⟩
      exact ⟨s', run.step ⟨action, enabled⟩ trivial, rfl⟩

end Lockstep

end Concurrency
end Autolock
