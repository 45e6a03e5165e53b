import Autolock.UserLocks.McsQueue

namespace Autolock
namespace UserLocks

open Concurrency Data

/-!
# When the MCS lock is handed over

The word of a node stays zero, and the recheck takes every value but one for the
end of the wait: a thread enters as soon as it looks.  An `unlock` that finds its
successor linked at once wakes through a pointer that has no value.  As long as
neither happens out of turn the queue does what it is for, and the first step that
does it breaks it.
-/

namespace Mcs

variable {Tid : Type} {trace : List (Tid × McsEvent Tid)}

/-! ## Every run in turn -/

structure Account (trace : List (Tid × McsEvent Tid)) (m : McsLock Tid) (pc : Tid -> McsPc Tid) :
    Prop where
  queue : exists q, Queue trace m pc q
  entered : forall before v, before ++ [(v, .entered)] <+: trace -> Released before v
  woke : forall before u next, before ++ [(u, .woke next)] <+: trace ->
    exists v, next = some v ∧ Awaits before v u
  cleared : forall before u ret, before ++ [(u, .cleared ret)] <+: trace ->
    forall v, ¬Behind before v u

theorem account_init {s : Machine Tid (McsLock Tid) (McsThread Tid)} (initial : init s) :
    Account [] s.shared (pcs s) := by
  have outside : forall t, ¬Initialised (pcs s t) := by
    intro t
    rw [pcs, initial.2.2 t]
    exact id
  have nobody : forall t, ¬Enqueued (pcs s t) := fun t enqueued =>
    outside t (initialised_of_enqueued enqueued)
  exact
    { queue := ⟨[],
        { nodup := List.nodup_nil
          tail := initial.1
          member := fun t => iff_of_false List.not_mem_nil (nobody t)
          follows := fun u v adjacent => absurd adjacent not_adjacent_nil
          last := fun u last => nomatch last
          first := fun v u linked first => nomatch first
          behind := fun u v enqueued => absurd enqueued (nobody u)
          mem := fun t initialised => absurd initialised (outside t)
          settled := fun t => settled_of_not_initialised (outside t) }⟩
      entered := fun before v begins => absurd begins not_begins_nil
      woke := fun before u next begins => absurd begins not_begins_nil
      cleared := fun before u ret begins => absurd begins not_begins_nil }

theorem Account.handsOver {s : Machine Tid (McsLock Tid) (McsThread Tid)}
    (account : Account trace s.shared (pcs s)) : HandsOver trace s := by
  rcases account.queue with ⟨q, queue⟩
  exact
    { exclusive := fun t u mine yours =>
        Option.some.inj ((queue.holder mine).symm.trans (queue.holder yours))
      entered := account.entered
      woke := account.woke
      cleared := account.cleared
      awaited := by
        intro u spins
        have settled : Settled u s.shared .awaitNext := spins ▸ queue.settled u
        exact queue.awaits (spins ▸ trivial) (queue.tail ▸ settled)
      found := by
        intro u next wakes
        rcases queue.next wakes with ⟨v, rest, -, link, -, awaits⟩
        exact ⟨v, link, awaits⟩
      attended := by
        intro v waits
        rcases Option.isSome_iff_exists.mp waits with ⟨⟨u, linked⟩, waits⟩
        rcases queue.waiting waits with adjacent | ⟨-, -, released⟩
        · have enqueued := (queue.member u).mp adjacent.mem_left
          exact Or.inr ⟨u, (queue.follows u v adjacent).awaits, enqueued⟩
        · exact Or.inl released }

/-- The step is not one of those that lead astray. -/
theorem Queue.not_astray {m : McsLock Tid} {pc : Tid -> McsPc Tid} {q : List Tid} {t : Tid}
    {l l' : McsPc Tid} (queue : Queue trace m pc q) (here : pc t = l)
    (unlinked : l = .loadNext -> (m.node t).next = none) : ¬Astray t m l l' := by
  rintro (⟨u, tmpWaitIters, _, unlocked⟩ | ⟨_, _, asleep⟩ | linked)
  · have zero := queue.mem t (here ▸ trivial)
    exact absurd (zero.symm.trans unlocked) (by decide)
  · have settled := queue.settled t
    rw [here] at settled
    cases l <;> first | exact settled | exact asleep
  · exact linked (unlinked rfl)

variable [DecidableEq Tid]

section step

variable {m m' : McsLock Tid} {pc : Tid -> McsPc Tid} {q : List Tid} {t : Tid} {l l' : McsPc Tid}
  {event : McsEvent Tid}

theorem enters_of_moves (moves : Moves t m l m' l' .entered) :
    exists u tmpWaitIters, l = .pausing u tmpWaitIters := by
  cases moves with
  | passes u tmpWaitIters => exact ⟨u, tmpWaitIters, rfl⟩
  | remains pc pc' event apart uninitialised quiet outside => exact absurd rfl outside
  | goesOn pc pc' event mine still quiet inside => exact absurd rfl inside
  | acquires pc pc' event prepared free first enqueues => exact enqueues.2.elim

theorem wakes_of_moves {target : Option Tid} (moves : Moves t m l m' l' (.woke target)) :
    exists next, l = .wake next ∧ (next = none ∨ target = next) ∧ m' = futexWake m target ∧
      l' = .outside := by
  cases moves with
  | wakes next target same => exact ⟨next, rfl, same, rfl, rfl⟩
  | remains pc pc' event apart uninitialised quiet => exact quiet.elim
  | goesOn pc pc' event mine still quiet => exact quiet.elim
  | acquires pc pc' event prepared free first enqueues => exact enqueues.2.elim

theorem clears_of_moves {ret : Int} (moves : Moves t m l m' l' (.cleared ret)) :
    l = .clearTail ∧ m.tail = some t ∧ m' = { m with tail := none } ∧ l' = .outside := by
  cases moves with
  | clears ret last => exact ⟨rfl, last, rfl, rfl⟩
  | remains pc pc' event apart uninitialised quiet => exact quiet.elim
  | goesOn pc pc' event mine still quiet => exact quiet.elim
  | acquires pc pc' event prepared free first enqueues => exact enqueues.2.elim

theorem prepared_of_moves (moves : Moves t m l m' l' event) (enqueues : Enqueues t (t, event)) :
    Prepared l := by
  cases moves with
  | acquires pc pc' event prepared => exact prepared
  | enqueues => trivial
  | remains pc pc' event apart uninitialised quiet =>
      exact absurd enqueues (not_enqueues_of_quiet quiet t)
  | goesOn pc pc' event mine still quiet => exact absurd enqueues (not_enqueues_of_quiet quiet t)
  | _ => exact absurd enqueues.2 id

theorem Queue.step (queue : Queue trace m pc q) (here : pc t = l) (moves : Moves t m l m' l' event)
    (released : forall u tmpWaitIters, l = .pausing u tmpWaitIters -> Released trace t) :
    exists q', Queue (trace ++ [(t, event)]) m' (Function.update pc t l') q' := by
  cases event with
  | internal | trylockFailed | entered | lockReturned =>
      exact ⟨q, queue.quiet_step here moves trivial released⟩
  | trylockAcquired ret =>
      have enqueues : Enqueues t (t, .trylockAcquired ret) := ⟨rfl, trivial⟩
      exact ⟨_, queue.enqueue_step here (prepared_of_moves moves enqueues) moves enqueues⟩
  | exchanged tail =>
      have enqueues : Enqueues t (t, .exchanged tail) := ⟨rfl, trivial⟩
      exact ⟨_, queue.enqueue_step here (prepared_of_moves moves enqueues) moves enqueues⟩
  | cleared ret =>
      rcases clears_of_moves moves with ⟨rfl, last, rfl, rfl⟩
      exact ⟨[], queue.clear_step here last ret⟩
  | woke target =>
      rcases wakes_of_moves moves with ⟨next, rfl, same, rfl, rfl⟩
      exact queue.wake_step here same

theorem Account.step (account : Account trace m pc) (here : pc t = l)
    (moves : Moves t m l m' l' event)
    (released : forall u tmpWaitIters, l = .pausing u tmpWaitIters -> Released trace t) :
    Account (trace ++ [(t, event)]) m' (Function.update pc t l') := by
  rcases account.queue with ⟨q, queue⟩
  refine ⟨queue.step here moves released, ?_, ?_, ?_⟩
  · intro before v begins
    rcases begins_concat begins with ⟨rfl, same⟩ | earlier
    · cases same
      rcases enters_of_moves moves with ⟨u, tmpWaitIters, pausing⟩
      exact released u tmpWaitIters pausing
    · exact account.entered before v earlier
  · intro before u next begins
    rcases begins_concat begins with ⟨rfl, same⟩ | earlier
    · cases same
      rcases wakes_of_moves moves with ⟨found, rfl, same, -⟩
      rcases queue.next here with ⟨v, rest, -, link, -, awaits⟩
      refine ⟨v, ?_, awaits⟩
      rcases same with nothing | same
      · exact absurd (nothing.symm.trans link) nofun
      · exact same.trans link
    · exact account.woke before u next earlier
  · intro before u ret begins v behind
    rcases begins_concat begins with ⟨rfl, same⟩ | earlier
    · cases same
      rcases clears_of_moves moves with ⟨rfl, last, -⟩
      have adjacent := queue.behind t v (here ▸ Or.inl trivial) behind
      exact not_adjacent_last queue.nodup (queue.tail.symm.trans last) adjacent
    · exact account.cleared before u ret earlier v behind

end step

variable {autolock : Bool} {s s' : Machine Tid (McsLock Tid) (McsThread Tid)}
  {label : Tid × McsEvent Tid}

theorem pcs_update (m : McsLock Tid) (thread : Tid -> McsThread Tid) (t : Tid) (l : McsThread Tid) :
    pcs ⟨m, Function.update thread t l⟩ =
      Function.update (pcs ⟨m, thread⟩) t l.pc :=
  Function.comp_update McsThread.pc thread t l

theorem Account.next (account : Account trace s.shared (pcs s))
    (moved : (system Tid autolock).next s label s') (allowed : inTurn trace s label s') :
    Account (trace ++ [label]) s'.shared (pcs s') := by
  rcases Program.system_next moved with ⟨action, m', l', stepped, rfl⟩
  rcases account.queue with ⟨q, queue⟩
  rw [pcs_update]
  have moves := (moves_of_step stepped).resolve_right (queue.not_astray rfl allowed.2)
  exact account.step rfl moves allowed.1

theorem account_of_run (run : (system Tid autolock).Run inTurn trace s) :
    Account trace s.shared (pcs s) :=
  run.invariant (fun trace s => Account trace s.shared (pcs s)) (fun _ => account_init)
    fun _ _ _ _ account moved allowed => account.next moved allowed

/-! ## The first step out of turn -/

theorem step_loadNext {t : Tid} {action : McsAction Tid} {m m' : McsLock Tid}
    {l l' : McsThread Tid} {event : McsEvent Tid}
    (stepped : step autolock t action m l = some (m', l', event)) (loads : l.pc = .loadNext)
    (linked : (m.node t).next ≠ none) : l'.pc = .wake none := by
  rcases l with ⟨pc, page⟩
  cases loads
  rcases Option.ne_none_iff_exists'.mp linked with ⟨next, found⟩
  cases run_of_step stepped trivial
  simp only [step, found] at stepped
  cases stepped
  rfl

/-- A thread that looks at its node enters. -/
theorem step_pausing {t u : Tid} {tmpWaitIters : UInt32} {action : McsAction Tid}
    {m m' : McsLock Tid} {l l' : McsThread Tid} {event : McsEvent Tid}
    (stepped : step autolock t action m l = some (m', l', event))
    (pauses : l.pc = .pausing u tmpWaitIters) (zero : (m.node t).mem = McsNode.unlocked) :
    event = .entered := by
  rcases l with ⟨pc, page⟩
  cases pauses
  have passes : (m.node t).mem ≠ ClhNode.unlocked := by
    rw [zero]
    decide
  cases run_of_step stepped trivial
  simp only [step, if_pos passes] at stepped
  cases stepped
  rfl

/-- In every run in turn the lock is handed over, and a further step keeps this
exactly if it is in turn as well. -/
theorem handsOver_and_exact (run : (system Tid autolock).Run inTurn trace s) :
    HandsOver trace s ∧ forall label s', (system Tid autolock).next s label s' ->
      (HandsOver (trace ++ [label]) s' <-> inTurn trace s label s') := by
  have account := account_of_run run
  refine ⟨account.handsOver, fun label s' moved => ⟨fun handsOver => ?_, fun allowed => ?_⟩⟩
  · rcases Program.system_next moved with ⟨action, m', l', stepped, rfl⟩
    rcases account.queue with ⟨q, queue⟩
    constructor
    · intro u tmpWaitIters pauses
      have zero : (s.shared.node label.1).mem = McsNode.unlocked :=
        queue.mem label.1 (pauses ▸ trivial)
      have enters : label = (label.1, .entered) := Prod.ext rfl (step_pausing stepped pauses zero)
      exact handsOver.entered trace label.1 (by rw [← enters])
    · intro loads
      by_contra linked
      have lost : pcs ⟨m', Function.update s.thread label.1 l'⟩ label.1 = .wake none := by
        rw [pcs_update, Function.update_self, step_loadNext stepped loads linked]
      rcases handsOver.found label.1 none lost with ⟨v, nothing, -⟩
      cases nothing
  · exact (account.next moved allowed).handsOver

/-! ## Examples of runs -/

def unlockedMachine : Machine Nat (McsLock Nat) (McsThread Nat) where
  shared := ⟨none, fun _ => ⟨0, none⟩, fun _ => false⟩
  thread := fun _ => ⟨.outside, ⟨none, 0, 0⟩⟩

theorem init_unlockedMachine : init unlockedMachine :=
  ⟨rfl, fun _ => rfl, fun _ => rfl⟩

/-- Thread 0 has the lock, thread 1 enqueues behind it and links its node only
after thread 0 has looked for it; then thread 0 wakes it. -/
def lateLink : List (Nat × McsAction Nat) :=
  [(0, .callLock), (0, .run), (0, .run), (0, .run), (0, .run), (1, .callLock), (1, .run),
    (1, .run), (0, .callUnlock), (0, .run), (1, .run), (0, .run), (1, .run), (0, .run), (0, .run)]

/-- A part of the guard that does not look back. -/
def neverLooks (s : Machine Nat (McsLock Nat) (McsThread Nat)) (label : Nat × McsEvent Nat)
    (_ : Machine Nat (McsLock Nat) (McsThread Nat)) : Bool :=
  match pcs s label.1 with
  | .pausing _ _ => false
  | .loadNext => (s.shared.node label.1).next.isNone
  | _ => true

theorem inTurn_of_neverLooks (trace : List (Nat × McsEvent Nat))
    (s : Machine Nat (McsLock Nat) (McsThread Nat)) (label : Nat × McsEvent Nat)
    (s' : Machine Nat (McsLock Nat) (McsThread Nat)) (never : neverLooks s label s' = true) :
    inTurn trace s label s' := by
  unfold neverLooks at never
  constructor
  · intro tail tmpWaitIters pauses
    rw [pauses] at never
    cases never
  · intro loads
    rw [loads] at never
    exact Option.isNone_iff_eq_none.mp never

/-- After the wake thread 1 enters. -/
theorem handsOver_and_exact_lateLink :
    exists trace s, (system Nat false).Run inTurn trace s ∧ (1, McsEvent.entered) ∈ trace ∧
      HandsOver trace s := by
  have run : (system Nat false).Run inTurn ((program Nat false).play lateLink unlockedMachine).2
      ((program Nat false).play lateLink unlockedMachine).1 :=
    Program.run_play_checked inTurn_of_neverLooks init_unlockedMachine lateLink (by decide)
  have moved : exists s', (system Nat false).next ((program Nat false).play lateLink
      unlockedMachine).1 (1, .entered) s' := ⟨_, .run, rfl⟩
  rcases moved with ⟨s', moved⟩
  have released : Released ((program Nat false).play lateLink unlockedMachine).2 1 :=
    ⟨0, by decide, by decide⟩
  have run' := run.step moved ⟨fun _ _ _ => released, by decide⟩
  exact ⟨_, s', run', List.mem_append_right _ (List.mem_singleton_self _),
    (handsOver_and_exact run').1⟩

/-- Thread 0 has the lock, and thread 1 enqueues behind it and looks at its node. -/
def looksAtOnce : List (Nat × McsAction Nat) :=
  [(0, .callLock), (0, .run), (0, .run), (0, .run), (0, .run), (1, .callLock), (1, .run),
    (1, .run), (1, .run), (1, .run), (1, .run), (1, .run)]

/-- Both threads hold the lock. -/
theorem looksAtOnce_shares :
    exists trace s, (system Nat false).Run TransitionSystem.unguarded trace s ∧
      pcs s 0 = .holding ∧ pcs s 1 = .holding ∧ ¬HandsOver trace s := by
  refine ⟨_, _, Program.run_play init_unlockedMachine looksAtOnce (by decide), by decide,
    by decide, fun handsOver => ?_⟩
  have same : 0 = 1 := handsOver.exclusive 0 1 trivial trivial
  cases same

end Mcs

end UserLocks
end Autolock
