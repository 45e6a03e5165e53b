import Autolock.Concurrency.TransitionSystem
import Mathlib.Data.List.DropRight

namespace Autolock
namespace Concurrency

/-!
# Counting the steps of a run since the last reset

Some labels are counted, and some reset the count.  A bound on the count that
holds after every run bounds the number of counted labels in every stretch of
a run that has no reset in it.
-/

universe u v

variable {Label : Type v} {resets counts : Label -> Bool} {labels : List Label}

/-- How many labels are counted after the last one that resets. -/
def countSince (resets counts : Label -> Bool) (labels : List Label) : Nat :=
  (labels.rtakeWhile fun label => !resets label).countP counts

theorem countSince_nil : countSince resets counts [] = 0 := by
  simp [countSince]

theorem countSince_reset {label : Label} (reset : resets label = true) :
    countSince resets counts (labels ++ [label]) = 0 := by
  simp [countSince, reset]

theorem countSince_append {label : Label} (goesOn : resets label = false) :
    countSince resets counts (labels ++ [label]) =
      countSince resets counts labels + if counts label then 1 else 0 := by
  simp [countSince, goesOn, List.countP_singleton]

/-- A stretch without a reset is counted in full when it ends. -/
theorem countP_le_countSince (before : List Label) {stretch : List Label}
    (goesOn : forall label, label ∈ stretch -> resets label = false) :
    stretch.countP counts ≤ countSince resets counts (before ++ stretch) := by
  induction stretch using List.reverseRecOn with
  | nil => exact Nat.zero_le _
  | append_singleton stretch label inductionHypothesis =>
      have earlier := inductionHypothesis fun other member =>
        goesOn other (List.mem_append_left [label] member)
      have last := goesOn label (List.mem_append_right stretch (List.mem_singleton_self label))
      rw [← List.append_assoc, countSince_append last, List.countP_append,
        List.countP_singleton]
      omega

/-- If the count never exceeds a limit, neither does any stretch without a reset. -/
theorem countP_le_of_run {State : Type u} {system : TransitionSystem State Label}
    {guard : TransitionSystem.Guard State Label} {limit : Nat}
    (bounded : forall labels s, system.Run guard labels s ->
      countSince resets counts labels ≤ limit)
    {s : State} (run : system.Run guard labels s) {stretch : List Label}
    (inside : stretch <:+: labels)
    (goesOn : forall label, label ∈ stretch -> resets label = false) :
    stretch.countP counts ≤ limit := by
  rcases inside with ⟨before, after, rfl⟩
  rcases run.earlier (List.prefix_append (before ++ stretch) after) with ⟨s', earlier⟩
  exact (countP_le_countSince before goesOn).trans (bounded _ s' earlier)

end Concurrency
end Autolock
