import Autolock.Concurrency.Threads

namespace Autolock
namespace Concurrency

/-!
# The statuses that a lock on a futex returns

What the functions of a lock return is compared with what they have done.  A
failed system call is one whose raw result is negative; a wake-up that succeeds
has the number of the threads woken for its result.

The view of a program as such a lock tells the word and the sleepers of its
futex, and reads the steps of its threads.
-/

universe u

structure FutexLock (Tid Shared Local Action Event : Type u) where
  word : Shared -> UInt32
  /-- The word as a thread reads it. -/
  reads : Tid -> Shared -> UInt32
  sleepers : Shared -> List Tid
  unlocked : UInt32
  locked : UInt32
  success : Int
  holds : Local -> Bool
  /-- The step is the exchange of a `trylock`. -/
  exchanges : StepRecord Local Action Event -> Bool
  trylockReturn : Event -> Option Int
  lockReturn : Event -> Option Int
  unlockReturn : Event -> Option Int
  /-- The raw result of a system call on the futex that returns in this step. -/
  futexResult : StepRecord Local Action Event -> Option Int
  /-- The step is a wake-up by `unlock`. -/
  wakes : StepRecord Local Action Event -> Bool

namespace FutexLock

variable {Tid Shared Local Action Event : Type u}
  (view : FutexLock Tid Shared Local Action Event)

/-- The lock has passed to the thread from nobody. -/
def NewHolder (t : Tid) (s s' : Machine Tid Shared Local) : Prop :=
  (forall u, view.holds (s.thread u) = false) ∧ view.holds (s'.thread t) = true ∧
    forall u, view.holds (s'.thread u) = true -> u = t

/-- `trylock` returns success exactly in the step in which its own exchange has
changed the word from unlocked to locked, and does nothing after an exchange;
`lock` returns success to the new holder. -/
structure TakesTruthfully (s : Machine Tid Shared Local)
    (label : Tid × StepRecord Local Action Event) (s' : Machine Tid Shared Local) : Prop where
  trylock : view.trylockReturn label.2.event = some view.success <->
    view.exchanges label.2 = true ∧ view.word s.shared = view.unlocked ∧
      view.word s'.shared = view.locked
  exchange : view.exchanges label.2 = true -> (view.trylockReturn label.2.event).isSome = true
  lock : view.lockReturn label.2.event = some view.success -> view.NewHolder label.1 s s'

/-- A thread gives the lock up by a store of the unlocked word, and returns
from `unlock` no earlier. -/
structure ReleasesWord (s : Machine Tid Shared Local)
    (label : Tid × StepRecord Local Action Event) (s' : Machine Tid Shared Local) : Prop where
  release : view.holds (s.thread label.1) = true -> view.holds (s'.thread label.1) = false ->
    view.reads label.1 s'.shared = view.unlocked
  returned : (view.unlockReturn label.2.event).isSome = true ->
    view.holds (s'.thread label.1) = false

/-- A system call on the futex has failed. -/
def Fails (label : Tid × StepRecord Local Action Event) : Prop :=
  exists result, view.futexResult label.2 = some result ∧ result < 0

instance (label : Tid × StepRecord Local Action Event) : Decidable (view.Fails label) :=
  decidable_of_iff (exists result, result ∈ view.futexResult label.2 ∧ result < 0) Iff.rfl

/-- If `unlock` returns, it returns success. -/
def UnlockSucceeds (label : Tid × StepRecord Local Action Event) : Prop :=
  forall ret, view.unlockReturn label.2.event = some ret -> ret = view.success

/-- A wake-up by `unlock` finds no thread asleep. -/
def FindsNobody (s : Machine Tid Shared Local) (label : Tid × StepRecord Local Action Event) :
    Prop :=
  view.wakes label.2 = true -> view.sleepers s.shared = []

/-- The steps in which no system call on the futex fails. -/
def noFailure :
    TransitionSystem.Guard (Machine Tid Shared Local) (Tid × StepRecord Local Action Event) :=
  fun _ _ label _ => ¬view.Fails label

/-- Of these, the steps in which no wake-up finds a sleeper. -/
def nobodyAsleep :
    TransitionSystem.Guard (Machine Tid Shared Local) (Tid × StepRecord Local Action Event) :=
  fun _ s label _ => ¬view.Fails label ∧ view.FindsNobody s label

/-- The statuses are true, but for those of `unlock` in runs where a system call fails. -/
structure Truthful (system : TransitionSystem (Machine Tid Shared Local)
    (Tid × StepRecord Local Action Event)) : Prop where
  takes : forall trace s, system.Run TransitionSystem.unguarded trace s ->
    system.Run (fun _ => view.TakesTruthfully) trace s
  releases : forall trace s, system.Run TransitionSystem.unguarded trace s ->
    system.Run (fun _ => view.ReleasesWord) trace s
  unlocks : forall trace s, system.Run view.noFailure trace s ->
    forall label, label ∈ trace -> view.UnlockSucceeds label

/-- The same, except that `unlock` succeeds exactly as long as it wakes nobody. -/
structure TruthfulUntilWakeUp (system : TransitionSystem (Machine Tid Shared Local)
    (Tid × StepRecord Local Action Event)) : Prop where
  takes : forall trace s, system.Run TransitionSystem.unguarded trace s ->
    system.Run (fun _ => view.TakesTruthfully) trace s
  releases : forall trace s, system.Run TransitionSystem.unguarded trace s ->
    system.Run (fun _ => view.ReleasesWord) trace s
  unlocks : forall trace s, system.Run view.noFailure trace s ->
    ((forall label, label ∈ trace -> view.UnlockSucceeds label) <->
      system.Run view.nobodyAsleep trace s)

variable {view} {system : TransitionSystem (Machine Tid Shared Local)
  (Tid × StepRecord Local Action Event)} {trace : List (Tid × StepRecord Local Action Event)}
  {s : Machine Tid Shared Local}

/-- If each step of `unlock` that returns succeeds exactly if it has found no
sleeper, a run without a failed system call has only successes exactly if it
has never found one. -/
theorem unlockSucceeds_iff
    (each : forall s label s', system.next s label s' -> ¬view.Fails label ->
      (view.UnlockSucceeds label <-> view.FindsNobody s label))
    (run : system.Run view.noFailure trace s) :
    (forall label, label ∈ trace -> view.UnlockSucceeds label) <->
      system.Run view.nobodyAsleep trace s := by
  constructor
  · intro succeeds
    induction run with
    | start initial => exact .start initial
    | @step trace s label s' run moved allowed inductionHypothesis =>
        have mine := succeeds label (List.mem_append_right _ (List.mem_singleton_self _))
        exact .step
          (inductionHypothesis fun label' earlier => succeeds label' (List.mem_append_left _ earlier))
          moved ⟨allowed, (each s label s' moved allowed).mp mine⟩
  · intro quiet
    clear run
    induction quiet with
    | start initial => exact fun label member => (List.not_mem_nil member).elim
    | @step trace s label s' run moved allowed inductionHypothesis =>
        intro label' member
        rcases List.mem_append.mp member with earlier | last
        · exact inductionHypothesis label' earlier
        · rw [List.mem_singleton.mp last]
          exact (each s label s' moved allowed.1).mpr allowed.2

/-- An invariant and what each step says under it. -/
theorem truthfulUntilWakeUp {inv : Machine Tid Shared Local -> Prop}
    (initially : forall s, system.init s -> inv s)
    (preserved : forall s label s', inv s -> system.next s label s' -> inv s')
    (takes : forall s label s', inv s -> system.next s label s' ->
      view.TakesTruthfully s label s')
    (releases : forall s label s', system.next s label s' -> view.ReleasesWord s label s')
    (unlocks : forall s label s', system.next s label s' -> ¬view.Fails label ->
      (view.UnlockSucceeds label <-> view.FindsNobody s label)) :
    view.TruthfulUntilWakeUp system where
  takes := fun _ _ run => run.each initially fun s label s' holds moved =>
    ⟨preserved s label s' holds moved, takes s label s' holds moved⟩
  releases := fun _ _ run => run.each initially fun s label s' holds moved =>
    ⟨preserved s label s' holds moved, releases s label s' moved⟩
  unlocks := fun _ _ run => unlockSucceeds_iff unlocks run

/-- A run without a failed system call in which `unlock` does not succeed. -/
theorem not_truthful (ret : Int) (run : system.Run view.noFailure trace s)
    (returned : (trace.any fun label => view.unlockReturn label.2.event == some ret) = true)
    (failure : ret ≠ view.success) : ¬view.Truthful system := by
  intro truthful
  rcases List.any_eq_true.mp returned with ⟨label, member, same⟩
  exact failure (truthful.unlocks trace s run label member ret (eq_of_beq same))

end FutexLock

end Concurrency
end Autolock
