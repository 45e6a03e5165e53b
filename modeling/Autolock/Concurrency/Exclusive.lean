import Mathlib.Logic.Function.Basic

namespace Autolock
namespace Concurrency

/-!
# At most one thread at some place

When one thread moves, a place that at most one thread can be at stays one if
the thread has been there before, has left, or finds nobody there.
-/

variable {Tid Local : Type} {property : Local -> Prop} {thread : Tid -> Local}

/-- The state of at most one thread has the property. -/
def Exclusive (property : Local -> Prop) (thread : Tid -> Local) : Prop :=
  forall t u, property (thread t) -> property (thread u) -> t = u

variable [DecidableEq Tid] {t : Tid} {l : Local}

/-- Whoever is there has been there, if the thread that moves does not come. -/
theorem of_update (kept : property l -> property (thread t)) {u : Tid}
    (now : property (Function.update thread t l u)) : property (thread u) := by
  by_cases itself : u = t
  · subst itself
    rw [Function.update_self] at now
    exact kept now
  · rwa [Function.update_of_ne itself] at now

theorem Exclusive.keep (exclusive : Exclusive property thread)
    (kept : property l -> property (thread t)) :
    Exclusive property (Function.update thread t l) :=
  fun u v first second => exclusive u v (of_update kept first) (of_update kept second)

theorem Exclusive.enter (nobody : forall u, ¬property (thread u)) :
    Exclusive property (Function.update thread t l) := by
  have mine : forall u, property (Function.update thread t l u) -> u = t := by
    intro u now
    by_contra different
    rw [Function.update_of_ne different] at now
    exact nobody u now
  exact fun u v first second => (mine u first).trans (mine v second).symm

/-- Somebody is still there if the thread that moves does not leave. -/
theorem exists_update (somebody : exists u, property (thread u))
    (kept : property (thread t) -> property l) :
    exists u, property (Function.update thread t l u) := by
  rcases somebody with ⟨u, there⟩
  by_cases itself : u = t
  · subst itself
    exact ⟨u, by rw [Function.update_self]; exact kept there⟩
  · exact ⟨u, by rwa [Function.update_of_ne itself]⟩

theorem exists_update_self (there : property l) :
    exists u, property (Function.update thread t l u) :=
  ⟨t, by rwa [Function.update_self]⟩

end Concurrency
end Autolock
