import Autolock.Concurrency.Drain

namespace Autolock
namespace Concurrency

/-!
# How a run can go on

A continuation starts where a run has ended, keeps to the guard of that run, and
may be confined to some of the steps of the program.  What every such step keeps
holds at the end of every continuation, however long it is.
-/

universe u

variable {Tid Shared Local Action Event : Type u} [DecidableEq Tid]

namespace Program

/-- From `s`, which was reached with the labels `trace`, the allowed steps lead
to `s'` within the guard. -/
def Continues (program : Program Tid Shared Local Action Event)
    (allowed : Tid -> Action -> Shared -> Local -> Bool)
    (guard : TransitionSystem.Guard (Machine Tid Shared Local) (Tid × Event))
    (trace : List (Tid × Event)) (s : Machine Tid Shared Local) (labels : List (Tid × Event))
    (s' : Machine Tid Shared Local) : Prop :=
  ((program.confine allowed).system fun start => start = s).Run
    (fun labels => guard (trace ++ labels)) labels s'

variable {program : Program Tid Shared Local Action Event}
  {allowed : Tid -> Action -> Shared -> Local -> Bool}
  {guard : TransitionSystem.Guard (Machine Tid Shared Local) (Tid × Event)}
  {init : Machine Tid Shared Local -> Prop} {trace labels : List (Tid × Event)}
  {s s' : Machine Tid Shared Local}

/-- A run and its continuation make one run. -/
theorem Continues.run (continues : program.Continues allowed guard trace s labels s')
    (run : (program.system init).Run guard trace s) :
    (program.system init).Run guard (trace ++ labels) s' := by
  refine continues.invariant
    (fun labels s' => (program.system init).Run guard (trace ++ labels) s') ?_ ?_
  · rintro _ rfl
    rwa [List.append_nil]
  · intro labels s₁ label s₂ run₁ moved within
    rcases system_next moved with ⟨action, shared', local', stepped, rfl⟩
    have enabled := (confine_step.mp stepped).2
    rw [← List.append_assoc]
    refine run₁.step ⟨action, ?_⟩ within
    simp only [next, enabled, Option.map_some]

/-- What the allowed steps of the states that can be reached keep, and what is
true of their labels, holds of every continuation. -/
theorem Continues.keeps (property : Machine Tid Shared Local -> Prop)
    (seen : Tid × Event -> Prop)
    (continues : program.Continues allowed guard trace s labels s')
    (run : (program.system init).Run guard trace s)
    (now : property s)
    (kept : forall trace s t action shared' l' event,
      (program.system init).Run guard trace s -> property s ->
      allowed t action s.shared (s.thread t) = true ->
      program.step t action s.shared (s.thread t) = some (shared', l', event) ->
      guard trace s (t, event) ⟨shared', Function.update s.thread t l'⟩ ->
      seen (t, event) ∧ property ⟨shared', Function.update s.thread t l'⟩) :
    (forall label, label ∈ labels -> seen label) ∧ property s' := by
  have both := continues.invariant
    (fun labels s' => (program.system init).Run guard (trace ++ labels) s' ∧
      (forall label, label ∈ labels -> seen label) ∧ property s') ?_ ?_
  · exact both.2
  · rintro _ rfl
    exact ⟨by rwa [List.append_nil], nofun, now⟩
  · rintro labels s₁ label s₂ ⟨run₁, others, holds⟩ moved within
    rcases system_next moved with ⟨action, shared', local', stepped, rfl⟩
    rcases confine_step.mp stepped with ⟨may, enabled⟩
    rcases kept _ _ _ _ _ _ _ run₁ holds may enabled within with ⟨last, holds'⟩
    refine ⟨?_, fun other member => ?_, holds'⟩
    · rw [← List.append_assoc]
      refine run₁.step ⟨action, ?_⟩ within
      simp only [next, enabled, Option.map_some]
    · rcases List.mem_append.mp member with earlier | isLast
      · exact others other earlier
      · rw [List.mem_singleton.mp isLast]
        exact last

/-- A schedule whose steps are allowed and pass a check that implies the guard
is a continuation. -/
theorem continues_play (check : Machine Tid Shared Local -> Tid × Event ->
      Machine Tid Shared Local -> Bool)
    (sound : forall labels s label s', check s label s' = true -> guard (trace ++ labels) s label s')
    (schedule : List (Tid × Action))
    (checked : (program.confine allowed).allSteps check schedule s = true) :
    program.Continues allowed guard trace s ((program.confine allowed).play schedule s).2
      ((program.confine allowed).play schedule s).1 :=
  run_play_checked sound (by exact rfl) schedule checked

end Program

end Concurrency
end Autolock
