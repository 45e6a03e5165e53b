import Autolock.Concurrency.Threads
import Mathlib.Data.Set.Card

namespace Autolock
namespace Concurrency

/-!
# Systems that can come to rest

From a reachable state the threads that are busy can all be brought to rest if
in every such state one of them can be brought to rest alone.  The steps that
this takes may be confined, for example to those that a scheduler permits.
-/

universe u

variable {Tid Shared Local Action Event : Type u}

namespace Program

/-- The program of which only those steps remain that are allowed. -/
def confine (program : Program Tid Shared Local Action Event)
    (allowed : Tid -> Action -> Shared -> Local -> Bool) :
    Program Tid Shared Local Action Event where
  step := fun t action shared l =>
    if allowed t action shared l then program.step t action shared l else none

variable {program : Program Tid Shared Local Action Event}
  {allowed : Tid -> Action -> Shared -> Local -> Bool}

theorem confine_step {t : Tid} {action : Action} {shared : Shared} {l : Local}
    {result : Shared × Local × Event} :
    (program.confine allowed).step t action shared l = some result <->
      allowed t action shared l = true ∧ program.step t action shared l = some result := by
  rw [confine, ite_eq_iff]
  simp

/-- Alone and by allowed steps the thread comes to rest. -/
def Finishes (program : Program Tid Shared Local Action Event)
    (allowed : Tid -> Action -> Shared -> Local -> Bool) (idle : Local -> Prop) (t : Tid)
    (shared : Shared) (l : Local) : Prop :=
  exists events shared' l',
    (program.confine allowed).Solo t shared l events shared' l' ∧ idle l'

variable {idle : Local -> Prop} {t : Tid} {shared shared' : Shared} {l l' : Local} {event : Event}

theorem Finishes.done (rests : idle l) : program.Finishes allowed idle t shared l :=
  ⟨[], shared, l, .refl shared l, rests⟩

theorem Finishes.step (action : Action) (may : allowed t action shared l = true)
    (stepped : program.step t action shared l = some (shared', l', event))
    (rest : program.Finishes allowed idle t shared' l') :
    program.Finishes allowed idle t shared l := by
  rcases rest with ⟨events, shared'', l'', solo, rests⟩
  exact ⟨event :: events, shared'', l'', .cons action (confine_step.mpr ⟨may, stepped⟩) solo, rests⟩

section runs

variable [DecidableEq Tid] {init : Machine Tid Shared Local -> Prop}

/-- What the confined program does the program can do. -/
theorem steps_of_confined {s s' : Machine Tid Shared Local} {labels : List (Tid × Event)}
    (steps : ((program.confine allowed).system init).Steps s labels s') :
    (program.system init).Steps s labels s' := by
  induction steps with
  | refl s => exact .refl s
  | @cons s _ _ label _ first _ inductionHypothesis =>
      rcases system_next first with ⟨action, shared', local', stepped, rfl⟩
      have enabled := (confine_step.mp stepped).2
      refine .cons ⟨action, ?_⟩ inductionHypothesis
      simp only [next, enabled, Option.map_some]

/-- In a finite run only finitely many threads have been moved. -/
theorem finite_busy {guard : TransitionSystem.Guard (Machine Tid Shared Local) (Tid × Event)}
    (initially : forall s, init s -> forall t, idle (s.thread t)) {trace : List (Tid × Event)}
    {s : Machine Tid Shared Local} (run : (program.system init).Run guard trace s) :
    { t | ¬idle (s.thread t) }.Finite := by
  refine run.invariant (fun _ s => { t | ¬idle (s.thread t) }.Finite) ?_ ?_
  · intro s initial
    have nobody : { t | ¬idle (s.thread t) } = ∅ :=
      Set.eq_empty_iff_forall_notMem.mpr fun t busy => busy (initially s initial t)
    rw [nobody]
    exact Set.finite_empty
  · intro _ s label s' finite moved _
    rcases system_next moved with ⟨_, _, _, _, rfl⟩
    refine (finite.insert label.1).subset fun u busy => ?_
    by_cases itself : u = label.1
    · exact Set.mem_insert_iff.mpr (Or.inl itself)
    · refine Set.mem_insert_of_mem _ fun rests => busy ?_
      rwa [← Function.update_of_ne itself _ s.thread] at rests

/-- If in every reachable state that is not at rest one busy thread can finish
alone, then every reachable state leads to one at rest. -/
theorem drains (idle : Local -> Prop)
    (initially : forall s, init s -> forall t, idle (s.thread t))
    (progress : forall trace s, (program.system init).Run TransitionSystem.unguarded trace s ->
      (exists t, ¬idle (s.thread t)) ->
      exists t, ¬idle (s.thread t) ∧ program.Finishes allowed idle t s.shared (s.thread t))
    {trace : List (Tid × Event)} {s : Machine Tid Shared Local}
    (run : (program.system init).Run TransitionSystem.unguarded trace s) :
    exists labels s', ((program.confine allowed).system init).Steps s labels s' ∧
      forall t, idle (s'.thread t) := by
  have finite := finite_busy initially run
  -- The number of busy threads decreases with each thread that finishes.
  induction busy : { t | ¬idle (s.thread t) }.ncard using Nat.strong_induction_on
    generalizing trace s with
  | _ n inductionHypothesis =>
    by_cases rests : forall t, idle (s.thread t)
    · exact ⟨[], s, .refl s, rests⟩
    · rcases progress trace s run (not_forall.mp rests) with
        ⟨t, busyThread, events, shared', l', solo, done⟩
      have steps : ((program.confine allowed).system init).Steps s _
          ⟨shared', Function.update s.thread t l'⟩ := solo.steps s.thread rfl
      have run' := run.append (steps_of_confined steps)
      have fewer : { u | ¬idle (Function.update s.thread t l' u) } ⊂ { u | ¬idle (s.thread u) } := by
        refine Set.ssubset_iff_of_subset (fun u stays => ?_) |>.mpr ⟨t, busyThread, ?_⟩
        · by_cases itself : u = t
          · subst itself
            exact busyThread
          · rwa [Set.mem_ofPred_eq, Function.update_of_ne itself] at stays
        · rw [Set.mem_ofPred_eq, Function.update_self]
          exact not_not.mpr done
      have less := Set.ncard_lt_ncard fewer finite
      rw [busy] at less
      rcases inductionHypothesis _ less run' (finite.subset fewer.subset) rfl with
        ⟨labels, s', rest, all⟩
      exact ⟨_, s', steps.append rest, all⟩

end runs

end Program

end Concurrency
end Autolock
