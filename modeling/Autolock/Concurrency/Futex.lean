import Autolock.Concurrency.Population

namespace Autolock
namespace Concurrency

/-!
# A futex with a count of its waiters

A thread that is about to sleep increments a count, sleeps in the queue of the
kernel, and decrements the count once it is awake again.  Whoever wakes the
sleepers looks at the count first.
-/

/-- The queue holds sleeping threads, each once, and the word counts the
threads between their increment and their decrement. -/
structure FutexQueue {Tid Local : Type} (registered sleeping : Local -> Bool)
    (sleepers : List Tid) (waiters : UInt32) (thread : Tid -> Local) : Prop where
  asleep : forall t, t ∈ sleepers -> sleeping (thread t) = true
  nodup : sleepers.Nodup
  counts : Counts waiters (fun l => registered l = true) thread

namespace FutexQueue

variable {Tid Local : Type} {registered sleeping : Local -> Bool} {sleepers sleepers' : List Tid}
  {waiters : UInt32} {thread : Tid -> Local} {t : Tid} {l : Local}

theorem not_mem (queue : FutexQueue registered sleeping sleepers waiters thread)
    (awake : sleeping (thread t) = false) : t ∉ sleepers := by
  intro member
  rw [queue.asleep t member] at awake
  cases awake

/-- A count of zero says that nobody sleeps. -/
theorem nobody (queue : FutexQueue registered sleeping sleepers 0 thread)
    (counted : forall l, sleeping l = true -> registered l = true) : sleepers = [] :=
  List.eq_nil_iff_forall_not_mem.mpr fun t member =>
    queue.counts.zero t (counted _ (queue.asleep t member))

variable [DecidableEq Tid]

theorem asleep_update (queue : FutexQueue registered sleeping sleepers waiters thread)
    (kept : sleepers'.Sublist sleepers) (awake : t ∉ sleepers') (u : Tid) (member : u ∈ sleepers') :
    sleeping (Function.update thread t l u) = true := by
  have different : u ≠ t := fun same => awake (same ▸ member)
  rw [Function.update_of_ne different]
  exact queue.asleep u (kept.mem member)

/-- A thread moves, and some threads leave the queue, this one if it was in it. -/
theorem move (queue : FutexQueue registered sleeping sleepers waiters thread)
    (kept : sleepers'.Sublist sleepers) (awake : t ∉ sleepers')
    (same : registered l = registered (thread t)) :
    FutexQueue registered sleeping sleepers' waiters (Function.update thread t l) :=
  ⟨queue.asleep_update kept awake, queue.nodup.sublist kept, queue.counts.stay (by rw [same])⟩

theorem register (queue : FutexQueue registered sleeping sleepers waiters thread)
    (awake : t ∉ sleepers) (before : registered (thread t) = false) (now : registered l = true)
    (fits : (population (fun l => registered l = true) (Function.update thread t l)).encard <
      (2 ^ 32 : Nat)) :
    FutexQueue registered sleeping sleepers (waiters + 1) (Function.update thread t l) :=
  ⟨queue.asleep_update (.refl _) awake, queue.nodup,
    queue.counts.enter (by rw [before]; decide) now fits⟩

theorem deregister (queue : FutexQueue registered sleeping sleepers waiters thread)
    (awake : t ∉ sleepers) (before : registered (thread t) = true) (now : registered l = false) :
    FutexQueue registered sleeping sleepers (waiters - 1) (Function.update thread t l) :=
  ⟨queue.asleep_update (.refl _) awake, queue.nodup,
    queue.counts.leave before (by rw [now]; decide)⟩

/-- A thread goes to sleep. -/
theorem sleep (queue : FutexQueue registered sleeping sleepers waiters thread)
    (awake : t ∉ sleepers) (now : sleeping l = true) (same : registered l = registered (thread t)) :
    FutexQueue registered sleeping (sleepers ++ [t]) waiters (Function.update thread t l) := by
  refine ⟨fun u member => ?_, ?_, queue.counts.stay (by rw [same])⟩
  · by_cases itself : u = t
    · rw [itself, Function.update_self]
      exact now
    · rw [Function.update_of_ne itself]
      rcases List.mem_append.mp member with before | last
      · exact queue.asleep u before
      · exact absurd (List.mem_singleton.mp last) itself
  · rw [List.nodup_append_comm]
    exact List.nodup_cons.mpr ⟨awake, queue.nodup⟩

end FutexQueue

/-- Nobody sleeps and nobody is registered. -/
theorem futexQueue_empty {Tid Local : Type} {registered sleeping : Local -> Bool}
    {thread : Tid -> Local} (nobody : forall t, registered (thread t) = false) :
    FutexQueue registered sleeping [] 0 thread where
  asleep := fun t member => nomatch member
  nodup := List.nodup_nil
  counts := by
    have empty : population (fun l => registered l = true) thread = ∅ := by
      refine Set.eq_empty_iff_forall_notMem.mpr fun t present => ?_
      have is : registered (thread t) = true := present
      rw [nobody t] at is
      cases is
    rw [Counts, empty, Set.encard_empty]
    rfl

end Concurrency
end Autolock
