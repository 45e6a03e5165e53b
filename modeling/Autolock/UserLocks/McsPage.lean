import Autolock.Concurrency.Continuation
import Autolock.UserLocks.Arming
import Autolock.UserLocks.McsQueue

namespace Autolock
namespace UserLocks

open Concurrency

/-!
# What the page of a waiter of the MCS lock does

The page is armed for the word of the thread's own node, with the value LOCKED of
the CLH lock.  The word never has another value, so that an armed page holds
nobody back.  While it is being armed it may, because of what an earlier wait has
left in it; and since the word does not change and only its owner stores to the
page, that is for good.
-/

namespace Mcs

variable {Tid : Type}

/-- How far a thread that waits has armed its page. -/
def armStage? : McsPc Tid -> Option ArmStage
  | .setWatchFor _ => some .addressed
  | .setWatchNeq _ => some .expecting
  | .link _ | .pausing _ _ | .futexWait _ | .sleeping _ | .disarm => some .armed
  | _ => none

/-- The page is armed as far as the thread has come. -/
def PageOk (t : Tid) (l : McsThread Tid) : Prop :=
  forall stage, armStage? l.pc = some stage -> l.page.At t ClhNode.locked stage

/-- How the kernel reads a watched word. -/
def readMem (m : McsLock Tid) (t : Tid) : UInt32 := (m.node t).mem

theorem initialised_of_armStage {pc : McsPc Tid} {stage : ArmStage}
    (arms : armStage? pc = some stage) : Initialised pc := by
  cases pc <;> trivial

variable [DecidableEq Tid] {t : Tid} {action : McsAction Tid} {m m' : McsLock Tid}
  {l l' : McsThread Tid} {event : McsEvent Tid}

omit [DecidableEq Tid] in
/-- A step with which a thread neither arms its page nor has it armed. -/
theorem pageOk_of_apart {pc : McsPc Tid} {page : KernelAutolockAbi Tid}
    (apart : armStage? pc = none) : PageOk t ⟨pc, page⟩ := by
  intro stage arms
  rw [apart] at arms
  cases arms

omit [DecidableEq Tid] in
theorem pageOk_of_armed {pc pc' : McsPc Tid} {page : KernelAutolockAbi Tid}
    (ok : PageOk t ⟨pc, page⟩) (armed : armStage? pc = some .armed)
    (still : armStage? pc' = some .armed) : PageOk t ⟨pc', page⟩ := by
  intro stage arms
  rw [still] at arms
  cases arms
  exact ok .armed armed

theorem step_pageOk (stepped : step true t action m l = some (m', l', event)) (ok : PageOk t l) :
    PageOk t l' := by
  rcases l with ⟨pc, page⟩
  cases pc <;> cases action <;> simp only [step, reduceCtorEq] at stepped
  case exchangeTail.run =>
    cases stepped
    refine pageOk_of_apart ?_
    cases m.tail <;> rfl
  -- The three stores to the page.
  case setWatchMem.run tail =>
    cases stepped
    rintro stage ⟨⟩
    rfl
  case setWatchFor.run tail =>
    cases stepped
    rintro stage ⟨⟩
    exact KernelAutolockAbi.At.expect (ok .addressed rfl)
  case setWatchNeq.run tail =>
    cases stepped
    rintro stage ⟨⟩
    exact KernelAutolockAbi.At.arm (ok .expecting rfl)
  -- Between the stores and the store of NULL the page stays as it is.
  case link.run tail =>
    cases stepped
    exact pageOk_of_armed ok rfl rfl
  case pausing.run tail tmpWaitIters =>
    split at stepped
    · cases stepped
      exact pageOk_of_armed ok rfl rfl
    · split at stepped <;> cases stepped <;> exact pageOk_of_armed ok rfl rfl
  case futexWait.run tail =>
    split at stepped <;> cases stepped <;> exact pageOk_of_armed ok rfl rfl
  case sleeping.run tail =>
    split at stepped <;> cases stepped
    exact pageOk_of_armed ok rfl rfl
  case sleeping.spurious tail =>
    cases stepped
    exact pageOk_of_armed ok rfl rfl
  case initNext.run call =>
    cases stepped
    cases call <;> exact pageOk_of_apart rfl
  case wake.run next =>
    cases next <;> cases stepped
    exact pageOk_of_apart rfl
  case wake.indeterminate next target =>
    cases next <;> cases stepped
    exact pageOk_of_apart rfl
  all_goals try (split at stepped)
  all_goals cases stepped
  all_goals exact pageOk_of_apart rfl

/-! ## The words of the nodes -/

theorem readMem_store (w : UInt32) :
    readMem { m with node := Function.update m.node t { m.node t with mem := w } } =
      Function.update (readMem m) t w := by
  funext u
  by_cases same : u = t <;> simp [readMem, same]

theorem readMem_link (u : Tid) (next : Option Tid) :
    readMem { m with node := Function.update m.node u { m.node u with next := next } } =
      readMem m := by
  funext v
  by_cases same : v = u <;> simp [readMem, same]

theorem readMem_futexWake (target : Option Tid) : readMem (futexWake m target) = readMem m := by
  cases target <;> rfl

/-- A step leaves the words as they are, and does not initialise the node, or it
stores UNLOCKED to the word of its thread. -/
theorem step_readMem {autolock : Bool}
    (stepped : step autolock t action m l = some (m', l', event)) :
    (readMem m' = readMem m ∧ (Initialised l'.pc -> Initialised l.pc)) ∨
      readMem m' = Function.update (readMem m) t McsNode.unlocked := by
  rcases l with ⟨pc, page⟩
  cases pc <;> cases action <;> simp only [step, reduceCtorEq] at stepped
  case initMem.run call =>
    cases stepped
    exact Or.inr (readMem_store _)
  case initNext.run call =>
    cases stepped
    exact Or.inl ⟨readMem_link _ _, fun _ => trivial⟩
  case link.run tail =>
    cases stepped
    exact Or.inl ⟨readMem_link _ _, fun _ => trivial⟩
  case wake.run next =>
    cases next <;> cases stepped
    exact Or.inl ⟨readMem_futexWake _, fun _ => trivial⟩
  case wake.indeterminate next target =>
    cases next <;> cases stepped
    exact Or.inl ⟨readMem_futexWake _, fun _ => trivial⟩
  case pausing.run tail tmpWaitIters =>
    split at stepped
    · cases stepped
      exact Or.inl ⟨rfl, fun _ => trivial⟩
    · split at stepped <;> cases stepped <;> exact Or.inl ⟨rfl, fun _ => trivial⟩
  all_goals try (split at stepped)
  all_goals cases stepped
  all_goals first
    | exact Or.inl ⟨rfl, fun _ => trivial⟩
    | exact Or.inl ⟨rfl, fun initialised => initialised.elim⟩

/-! ## Every run -/

/-- Pages and words as every reachable state has them. -/
structure Armed (s : Machine Tid (McsLock Tid) (McsThread Tid)) : Prop where
  page : forall t, PageOk t (s.thread t)
  word : forall t, Initialised (pcs s t) -> readMem s.shared t = McsNode.unlocked

omit [DecidableEq Tid] in
theorem armed_init {s : Machine Tid (McsLock Tid) (McsThread Tid)} (initial : init s) : Armed s where
  page := by
    intro t stage arms
    rw [initial.2.2 t] at arms
    cases arms
  word := by
    intro t initialised
    rw [pcs, initial.2.2 t] at initialised
    exact initialised.elim

theorem Armed.step {s : Machine Tid (McsLock Tid) (McsThread Tid)} (armed : Armed s)
    (stepped : step true t action s.shared (s.thread t) = some (m', l', event)) :
    Armed ⟨m', Function.update s.thread t l'⟩ where
  page := (Function.forall_update_iff s.thread PageOk).mpr
    ⟨step_pageOk stepped (armed.page t), fun u _ => armed.page u⟩
  word := by
    refine (Function.forall_update_iff s.thread
      fun u l => Initialised l.pc -> readMem m' u = McsNode.unlocked).mpr ?_
    rcases step_readMem stepped with ⟨same, still⟩ | stored
    · rw [same]
      exact ⟨fun initialised => armed.word t (still initialised), fun u _ => armed.word u⟩
    · rw [stored]
      refine ⟨fun _ => Function.update_self .., fun u different initialised => ?_⟩
      rw [Function.update_of_ne different]
      exact armed.word u initialised

theorem armed_of_run {trace : List (Tid × McsEvent Tid)}
    {s : Machine Tid (McsLock Tid) (McsThread Tid)}
    (run : (system Tid true).Run TransitionSystem.unguarded trace s) : Armed s := by
  refine run.invariant (fun _ => Armed) (fun _ => armed_init) ?_
  intro _ s label _ armed moved _
  rcases Program.system_next moved with ⟨action, m', l', stepped, rfl⟩
  exact armed.step (show Mcs.step true label.1 _ _ _ = _ from stepped)

omit [DecidableEq Tid] in
/-- A thread that arms its page is held exactly if what an earlier wait has left
in the page does it harm. -/
theorem Armed.held_iff {s : Machine Tid (McsLock Tid) (McsThread Tid)} (armed : Armed s)
    {stage : ArmStage} (arms : armStage? (pcs s t) = some stage) :
    (s.thread t).page.held (readMem s.shared) = false <->
      (s.thread t).page.Harmless ClhNode.locked stage :=
  (armed.page t stage arms).held_iff (armed.word t (initialised_of_armStage arms))

/-- The kernel schedules the thread. -/
def scheduled (_ : Tid) (_ : McsAction Tid) (m : McsLock Tid) (l : McsThread Tid) : Bool :=
  !l.page.held (readMem m)

/-- A thread whose page is fully armed is never held; one that is still arming it
is held exactly if what an earlier wait has left in the page does it harm, and
then it is held in every continuation of the run, whatever the threads do that
the kernel schedules. -/
theorem page_harmless_or_held_forever (trace : List (Tid × McsEvent Tid))
    (s : Machine Tid (McsLock Tid) (McsThread Tid))
    (run : (system Tid true).Run TransitionSystem.unguarded trace s) (t : Tid) (stage : ArmStage)
    (arms : armStage? (pcs s t) = some stage) :
    ((s.thread t).page.held (readMem s.shared) = true <->
        ¬(s.thread t).page.Harmless ClhNode.locked stage) ∧
      (stage = .armed -> (s.thread t).page.held (readMem s.shared) = false) ∧
      ((s.thread t).page.held (readMem s.shared) = true -> forall labels s',
        (program Tid true).Continues scheduled TransitionSystem.unguarded trace s labels s' ->
        s'.thread t = s.thread t ∧ (s'.thread t).page.held (readMem s'.shared) = true) := by
  have held_iff := (armed_of_run run).held_iff arms
  refine ⟨?_, ?_, fun held labels s' continues => ?_⟩
  · rw [← held_iff, Bool.not_eq_false]
  · rintro rfl
    exact held_iff.mpr trivial
  · have stays := continues.keeps (fun s₁ => s₁.thread t = s.thread t) (fun _ => True) run rfl ?_
    · have arms' : armStage? (pcs s' t) = some stage := by
        rw [pcs, stays.2]
        exact arms
      have held_iff' := (armed_of_run (continues.run run)).held_iff arms'
      rw [stays.2, ← held_iff] at held_iff'
      refine ⟨stays.2, ?_⟩
      rw [← Bool.not_eq_false, stays.2, held_iff', Bool.not_eq_false]
      exact held
    · intro trace s₁ u action m' l' event run₁ same may stepped _
      have arms₁ : armStage? (pcs s₁ t) = some stage := by
        rw [pcs, same]
        exact arms
      have held_iff₁ := (armed_of_run run₁).held_iff arms₁
      rw [same, ← held_iff] at held_iff₁
      have different : u ≠ t := by
        rintro rfl
        rw [scheduled, same, Bool.not_eq_true', held_iff₁, held] at may
        cases may
      exact ⟨trivial, (Function.update_of_ne different.symm _ _).trans same⟩

/-- Thread 0 has the lock, and thread 1 arms its page, in which another wait has
left a value, behind it. -/
def armBehind : List (Bool × McsAction Bool) :=
  [(false, .callLock), (false, .run), (false, .run), (false, .run), (false, .run),
    (true, .elsewhere ⟨none, 7, 0⟩), (true, .callLock), (true, .run), (true, .run), (true, .run),
    (true, .run)]

/-- The `unlock` of the holder waits for a link that the held thread never makes. -/
def unlockInVain : List (Bool × McsAction Bool) :=
  [(false, .callUnlock), (false, .run), (false, .run), (false, .run), (false, .run)]

def freshMachine : Machine Bool (McsLock Bool) (McsThread Bool) where
  shared := ⟨none, fun _ => ⟨0, none⟩, fun _ => false⟩
  thread := fun _ => ⟨.outside, ⟨none, 0, 0⟩⟩

theorem page_harmless_or_held_forever_armBehind :
    let s := ((program Bool true).play armBehind freshMachine).1
    let s' := (((program Bool true).confine scheduled).play unlockInVain s).1
    (s.thread true).page.held (readMem s.shared) = true ∧ s'.thread true = s.thread true ∧
      (s'.thread true).page.held (readMem s'.shared) = true := by
  have initial : init freshMachine := ⟨rfl, fun _ => rfl, fun _ => rfl⟩
  have held : (((program Bool true).play armBehind freshMachine).1.thread true).page.held
      (readMem ((program Bool true).play armBehind freshMachine).1.shared) = true := by decide
  exact ⟨held, (page_harmless_or_held_forever _ _ (Program.run_play initial armBehind (by decide))
    true .addressed (by decide)).2.2 held _ _
    (Program.continues_play (fun _ _ _ => true) (fun _ _ _ _ _ => trivial) unlockInVain
      (by decide))⟩

end Mcs

end UserLocks
end Autolock
