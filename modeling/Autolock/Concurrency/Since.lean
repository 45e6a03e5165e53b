import Mathlib.Data.List.Basic

namespace Autolock
namespace Concurrency

/-!
# What has been the case since some step of a run

The operator `since` of temporal logic, on the labels of a run so far: a label of
one kind has occurred, and all labels after it are of another kind.
-/

universe u

variable {Label : Type u}

def Since (keeps starts : Label -> Prop) : List Label -> Prop
  | [] => False
  | label :: later =>
      Since keeps starts later ∨ starts label ∧ forall other, other ∈ later -> keeps other

instance decidableSince (keeps starts : Label -> Prop) [DecidablePred keeps]
    [DecidablePred starts] : DecidablePred (Since keeps starts)
  | [] => inferInstanceAs (Decidable False)
  | label :: later =>
      have : Decidable (Since keeps starts later) := decidableSince keeps starts later
      inferInstanceAs (Decidable
        (Since keeps starts later ∨ starts label ∧ forall other, other ∈ later -> keeps other))

variable {keeps starts : Label -> Prop} {trace : List Label}

/-- One more label: it starts, or it keeps what has been. -/
theorem since_concat {label : Label} :
    Since keeps starts (trace ++ [label]) <->
      starts label ∨ keeps label ∧ Since keeps starts trace := by
  induction trace with
  | nil => simp [Since]
  | cons first trace inductionHypothesis =>
      rw [List.cons_append, Since, inductionHypothesis, Since, List.forall_mem_append,
        List.forall_mem_singleton]
      tauto

theorem Since.weaken {weaker : Label -> Prop} (implies : forall label, keeps label -> weaker label)
    (since : Since keeps starts trace) : Since weaker starts trace := by
  induction trace with
  | nil => exact since
  | cons label trace inductionHypothesis =>
      rcases since with later | ⟨start, kept⟩
      · exact Or.inl (inductionHypothesis later)
      · exact Or.inr ⟨start, fun other member => implies other (kept other member)⟩

end Concurrency
end Autolock
