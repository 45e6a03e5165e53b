import Autolock.Data.Adjacent
import Autolock.UserLocks.Mcs

namespace Autolock
namespace UserLocks

open Concurrency Data

/-!
# The queue of the MCS lock

The threads from the exchange on `lock->tail` to the end of `unlock` form a queue.
Its last thread is the tail; every thread but the first waits behind the one before
it, whose `next` it is as soon as it has linked its node; and if the first one still
waits it has been released.
-/

namespace Mcs

variable {Tid : Type}

/-! ## What a step does -/

/-- `node->mem` has been initialised. -/
def Initialised : McsPc Tid -> Prop
  | .outside | .loadTail | .initMem _ => False
  | _ => True

/-- The node has been initialised, and is not in the queue yet. -/
def Prepared : McsPc Tid -> Prop
  | .exchangeTail | .tryExchange => True
  | _ => False

/-- The recheck has failed. -/
def Parked : McsPc Tid -> Prop
  | .futexWait _ | .sleeping _ => True
  | _ => False

/-- Nobody enqueues and nobody is released or leaves. -/
def Quiet : McsEvent Tid -> Prop
  | .internal | .trylockFailed _ | .entered | .lockReturned _ => True
  | _ => False

theorem not_enqueued {pc : McsPc Tid} (held : ¬holds pc) (waits : waiting? pc = none) :
    ¬Enqueued pc := by
  rintro (held' | waits')
  · exact held held'
  · rw [waits] at waits'
    cases waits'

section moves

variable [DecidableEq Tid]

/-- The steps of a thread, one by one. -/
inductive Moves (t : Tid) (m : McsLock Tid) :
    McsPc Tid -> McsLock Tid -> McsPc Tid -> McsEvent Tid -> Prop
  | remains (pc pc' : McsPc Tid) (event : McsEvent Tid) (apart : ¬Enqueued pc)
      (uninitialised : ¬Initialised pc') (quiet : Quiet event) (outside : event ≠ .entered) :
      Moves t m pc m pc' event
  | initsMem (call : McsCall) :
      Moves t m (.initMem call)
        { m with node := Function.update m.node t { m.node t with mem := McsNode.unlocked } }
        (.initNext call) .internal
  | initsNext (call : McsCall) (pc' : McsPc Tid) (prepared : Prepared pc') :
      Moves t m (.initNext call)
        { m with node := Function.update m.node t { m.node t with next := none } } pc' .internal
  | acquires (pc pc' : McsPc Tid) (event : McsEvent Tid) (prepared : Prepared pc)
      (free : m.tail = none) (first : pc' = .holding ∨ pc' = .returning)
      (enqueues : Enqueues t (t, event)) (alone : forall u, event ≠ .exchanged (some u)) :
      Moves t m pc { m with tail := some t } pc' event
  | enqueues (u : Tid) (pc' : McsPc Tid) (taken : m.tail = some u)
      (waits : waiting? pc' = some (u, false)) :
      Moves t m .exchangeTail { m with tail := some t } pc' (.exchanged (some u))
  | arms (u : Tid) (pc pc' : McsPc Tid) (waits : waiting? pc = some (u, false))
      (waits' : waiting? pc' = some (u, false)) : Moves t m pc m pc' .internal
  | links (u : Tid) (tmpWaitIters : UInt32) :
      Moves t m (.link u)
        { m with node := Function.update m.node u { m.node u with next := some t } }
        (.pausing u tmpWaitIters) .internal
  | passes (u : Tid) (tmpWaitIters : UInt32) (pc' : McsPc Tid)
      (hasLock : pc' = .disarm ∨ pc' = .returning) :
      Moves t m (.pausing u tmpWaitIters) m pc' .entered
  | goesOn (pc pc' : McsPc Tid) (event : McsEvent Tid) (mine : holds pc)
      (still : pc' = .returning ∨ pc' = .holding ∨ pc' = .loadNext ∨ pc' = .clearTail)
      (quiet : Quiet event) (inside : event ≠ .entered) : Moves t m pc m pc' event
  | clears (ret : Int) (last : m.tail = some t) :
      Moves t m .clearTail { m with tail := none } .outside (.cleared ret)
  | awaits (pc : McsPc Tid) (mine : holds pc) (notLast : pc = .awaitNext ∨ m.tail ≠ some t) :
      Moves t m pc m .awaitNext .internal
  | finds (v : Tid) (linked : (m.node t).next = some v) :
      Moves t m .awaitNext m (.wake (some v)) .internal
  | wakes (next : Option Tid) (target : Option Tid) (same : next = none ∨ target = next) :
      Moves t m (.wake next) (futexWake m target) .outside (.woke target)

/-- The steps that remain: that of a thread whose recheck fails or has failed, and
that of an `unlock` whose successor is linked already. -/
inductive Astray (t : Tid) (m : McsLock Tid) : McsPc Tid -> McsPc Tid -> Prop
  | rechecks (u : Tid) (tmpWaitIters : UInt32) (pc' : McsPc Tid)
      (unlocked : (m.node t).mem = ClhNode.unlocked) : Astray t m (.pausing u tmpWaitIters) pc'
  | parked (pc pc' : McsPc Tid) (asleep : Parked pc) : Astray t m pc pc'
  | findsLinked (linked : (m.node t).next ≠ none) : Astray t m .loadNext (.wake none)

/-- The places from which there is only one way on. -/
def Runs : McsPc Tid -> Prop
  | .outside | .holding | .tryExchange | .sleeping _ | .wake _ => False
  | _ => True

section inversion

variable {autolock : Bool} {t : Tid} {action : McsAction Tid} {m m' : McsLock Tid}
  {l l' : McsThread Tid} {event : McsEvent Tid}

theorem run_of_step (stepped : step autolock t action m l = some (m', l', event))
    (runs : Runs l.pc) : action = .run := by
  rcases l with ⟨pc, page⟩
  cases pc <;> first
    | exact runs.elim
    | cases action <;> first
      | rfl
      | exact absurd stepped nofun

theorem moves_of_step (stepped : step autolock t action m l = some (m', l', event)) :
    Moves t m l.pc m' l'.pc event ∨ Astray t m l.pc l'.pc := by
  have only := run_of_step stepped
  rcases l with ⟨pc, page⟩
  cases pc with
  | outside =>
      cases action with
      | elsewhere | callLock | callTrylock =>
          cases stepped
          exact Or.inl (.remains _ _ _ (not_enqueued id rfl) id trivial nofun)
      | _ => exact absurd stepped nofun
  | loadTail =>
      cases only trivial
      simp only [step] at stepped
      split at stepped <;> cases stepped <;>
        exact Or.inl (.remains _ _ _ (not_enqueued id rfl) id trivial nofun)
  | initMem call =>
      cases only trivial
      cases stepped
      exact Or.inl (.initsMem call)
  | initNext call =>
      cases only trivial
      cases stepped
      refine Or.inl (.initsNext call _ ?_)
      cases call <;> trivial
  | tryExchange =>
      cases action with
      | spurious =>
          cases stepped
          exact Or.inl (.remains _ _ _ (not_enqueued id rfl) id trivial nofun)
      | run =>
          simp only [step] at stepped
          split at stepped
          · cases stepped
            exact Or.inl (.remains _ _ _ (not_enqueued id rfl) id trivial nofun)
          · next free =>
            cases stepped
            exact Or.inl (.acquires _ _ _ trivial free (Or.inl rfl) ⟨rfl, trivial⟩ fun _ => nofun)
      | _ => exact absurd stepped nofun
  | exchangeTail =>
      cases only trivial
      cases stepped
      cases found : m.tail with
      | none =>
          exact Or.inl (.acquires _ _ _ trivial found (Or.inr rfl) ⟨rfl, trivial⟩ fun _ => nofun)
      | some u =>
          refine Or.inl (.enqueues u _ found ?_)
          cases autolock <;> rfl
  | setWatchMem tail | setWatchFor tail | setWatchNeq tail =>
      cases only trivial
      cases stepped
      exact Or.inl (.arms tail _ _ rfl rfl)
  | link tail =>
      cases only trivial
      cases stepped
      exact Or.inl (.links tail _)
  | pausing tail tmpWaitIters =>
      cases only trivial
      simp only [step] at stepped
      split at stepped
      · cases stepped
        refine Or.inl (.passes tail tmpWaitIters _ ?_)
        cases autolock
        · exact Or.inr rfl
        · exact Or.inl rfl
      · next unlocked => exact Or.inr (.rechecks tail tmpWaitIters _ (not_not.mp unlocked))
  | futexWait | sleeping => exact Or.inr (.parked _ _ trivial)
  | disarm =>
      cases only trivial
      cases stepped
      exact Or.inl (.goesOn _ _ _ trivial (Or.inl rfl) trivial nofun)
  | returning =>
      cases only trivial
      cases stepped
      exact Or.inl (.goesOn _ _ _ trivial (Or.inr (Or.inl rfl)) trivial nofun)
  | holding =>
      cases action with
      | callUnlock =>
          cases stepped
          exact Or.inl (.goesOn _ _ _ trivial (Or.inr (Or.inr (Or.inl rfl))) trivial nofun)
      | _ => exact absurd stepped nofun
  | loadNext =>
      cases only trivial
      simp only [step] at stepped
      split at stepped
      · cases stepped
        exact Or.inl (.goesOn _ _ _ trivial (Or.inr (Or.inr (Or.inr rfl))) trivial nofun)
      · next linked =>
        cases stepped
        exact Or.inr (.findsLinked (by rw [linked]; exact nofun))
  | clearTail =>
      cases only trivial
      simp only [step] at stepped
      split at stepped
      · next last =>
        cases stepped
        exact Or.inl (.clears iSuccess last)
      · next notLast =>
        cases stepped
        exact Or.inl (.awaits _ trivial (Or.inr notLast))
  | awaitNext =>
      cases only trivial
      simp only [step] at stepped
      split at stepped
      · cases stepped
        exact Or.inl (.awaits _ trivial (Or.inl rfl))
      · next linked =>
        cases stepped
        exact Or.inl (.finds _ linked)
  | wake next =>
      cases next <;> cases action <;> first
        | cases stepped
          first
            | exact Or.inl (.wakes _ _ (Or.inr rfl))
            | exact Or.inl (.wakes _ _ (Or.inl rfl))
        | exact absurd stepped nofun

end inversion

end moves

/-! ## What the labels so far say -/

variable {trace : List (Tid × McsEvent Tid)} {label : Tid × McsEvent Tid}

theorem not_enqueues_of_quiet (quiet : Quiet label.2) (t : Tid) : ¬Enqueues t label := by
  rintro ⟨-, enqueues⟩
  cases event : label.2 <;> rw [event] at quiet enqueues <;> first | exact quiet | exact enqueues

theorem behind_concat {u v : Tid} : Behind (trace ++ [label]) v u <->
    label = (v, .exchanged (some u)) ∨
      (¬Enqueues v label ∧ ¬Enqueues u label) ∧ Behind trace v u :=
  since_concat

theorem Awaits.step {u v : Tid} (awaits : Awaits trace v u) (first : ¬Enqueues v label)
    (second : ¬Enqueues u label) (unwoken : label.2 ≠ .woke (some v)) :
    Awaits (trace ++ [label]) v u := by
  refine ⟨since_concat.mpr (Or.inr ⟨⟨first, second⟩, awaits.1⟩), fun w woken => ?_⟩
  rcases since_concat.mp woken with now | ⟨-, before⟩
  · exact unwoken (congrArg Prod.snd now)
  · exact awaits.2 w before

theorem Released.step {v : Tid} (released : Released trace v) (first : ¬Enqueues v label) :
    Released (trace ++ [label]) v := by
  rcases released with ⟨u, behind, woken⟩
  exact ⟨u, since_concat.mpr (Or.inr ⟨first, behind⟩), since_concat.mpr (Or.inr ⟨first, woken⟩)⟩

/-- The thread behind it has been released. -/
theorem Awaits.released {u v : Tid} (awaits : Awaits trace v u) :
    Released (trace ++ [(u, .woke (some v))]) v := by
  have behind : Predecessor trace v u := awaits.1.weaken fun _ kept => kept.1
  refine ⟨u, since_concat.mpr (Or.inr ⟨?_, behind⟩), since_concat.mpr (Or.inl rfl)⟩
  exact fun enqueues => enqueues.2

theorem Awaits.not_released {u v : Tid} (awaits : Awaits trace v u) : ¬Released trace v := by
  rintro ⟨w, -, woken⟩
  exact awaits.2 w woken

/-! ## The queue -/

/-- `v` waits behind `u`, and has linked its node if it is that far. -/
structure Follows (trace : List (Tid × McsEvent Tid)) (m : McsLock Tid) (pc : Tid -> McsPc Tid)
    (u v : Tid) : Prop where
  waits : exists linked, waiting? (pc v) = some (u, linked) ∧
    (m.node u).next = if linked then some v else none
  awaits : Awaits trace v u

/-- What a thread relies on where it is: a node that is to enter the queue is
linked to nobody, an `unlock` that goes on has a successor and goes on with it, and
no recheck has failed. -/
def Settled (t : Tid) (m : McsLock Tid) : McsPc Tid -> Prop
  | .exchangeTail | .tryExchange => (m.node t).next = none
  | .futexWait _ | .sleeping _ => False
  | .awaitNext => m.tail ≠ some t
  | .wake next => next ≠ none ∧ next = (m.node t).next
  | _ => True

structure Queue (trace : List (Tid × McsEvent Tid)) (m : McsLock Tid) (pc : Tid -> McsPc Tid)
    (q : List Tid) : Prop where
  nodup : q.Nodup
  tail : m.tail = q.getLast?
  member : forall t, t ∈ q <-> Enqueued (pc t)
  follows : forall u v, Adjacent q u v -> Follows trace m pc u v
  last : forall u, q.getLast? = some u -> (m.node u).next = none
  first : forall v u linked, q.head? = some v -> waiting? (pc v) = some (u, linked) ->
    linked = true ∧ Released trace v
  behind : forall u v, Enqueued (pc u) -> Behind trace v u -> Adjacent q u v
  mem : forall t, Initialised (pc t) -> (m.node t).mem = McsNode.unlocked
  settled : forall t, Settled t m (pc t)

theorem waiting_of_holds {pc : McsPc Tid} (mine : holds pc) : waiting? pc = none := by
  cases pc <;> first | rfl | exact mine.elim

theorem initialised_of_enqueued {pc : McsPc Tid} (enqueued : Enqueued pc) : Initialised pc := by
  cases pc <;> first | trivial | exact absurd enqueued (not_enqueued id rfl)

theorem not_enqueued_of_prepared {pc : McsPc Tid} (prepared : Prepared pc) : ¬Enqueued pc := by
  cases pc <;> first | exact not_enqueued id rfl | exact prepared.elim

theorem initialised_of_prepared {pc : McsPc Tid} (prepared : Prepared pc) : Initialised pc := by
  cases pc <;> trivial

theorem settled_of_not_initialised {t : Tid} {m : McsLock Tid} {pc : McsPc Tid}
    (uninitialised : ¬Initialised pc) : Settled t m pc := by
  cases pc <;> first | trivial | exact absurd trivial uninitialised

theorem settled_of_waiting {t u : Tid} {m : McsLock Tid} {pc : McsPc Tid}
    (waits : waiting? pc = some (u, false)) : Settled t m pc := by
  cases pc <;> first | trivial | cases waits

theorem enqueued_of_waiting {pc : McsPc Tid} {u : Tid} {linked : Bool}
    (waits : waiting? pc = some (u, linked)) : Enqueued pc :=
  Or.inr (by rw [waits, Option.isSome_some])

section queue

variable {m : McsLock Tid} {pc : Tid -> McsPc Tid} {q : List Tid}

/-- Whoever waits is behind the thread before it, or is first and has been released. -/
theorem Queue.waiting (queue : Queue trace m pc q) {u v : Tid} {linked : Bool}
    (waits : waiting? (pc v) = some (u, linked)) :
    Adjacent q u v ∨ linked = true ∧ q.head? = some v ∧ Released trace v := by
  by_cases isFirst : q.head? = some v
  · rcases queue.first v u linked isFirst waits with ⟨linked', released⟩
    exact Or.inr ⟨linked', isFirst, released⟩
  · have member : v ∈ q := (queue.member v).mpr (enqueued_of_waiting waits)
    rcases exists_adjacent_before member isFirst with ⟨u', adjacent⟩
    rcases (queue.follows u' v adjacent).waits with ⟨linked', waits', -⟩
    cases waits.symm.trans waits'
    exact Or.inl adjacent

/-- The holder is the first. -/
theorem Queue.holder (queue : Queue trace m pc q) {t : Tid} (mine : holds (pc t)) :
    q.head? = some t := by
  by_contra notFirst
  rcases exists_adjacent_before ((queue.member t).mpr (Or.inl mine)) notFirst with ⟨u, adjacent⟩
  rcases (queue.follows u t adjacent).waits with ⟨linked, waits, -⟩
  rw [waiting_of_holds mine] at waits
  cases waits

theorem Queue.link (queue : Queue trace m pc q) {t u : Tid} (linking : pc t = .link u) :
    Adjacent q u t := by
  have waits : waiting? (pc t) = some (u, false) := by rw [linking]; rfl
  exact (queue.waiting waits).resolve_right fun released => Bool.false_ne_true released.1

/-- A thread before another one has a successor that awaits it. -/
theorem Queue.awaits (queue : Queue trace m pc q) {u : Tid} (mine : holds (pc u))
    (notLast : q.getLast? ≠ some u) : exists v, Awaits trace v u := by
  rcases exists_adjacent_after ((queue.member u).mpr (Or.inl mine)) notLast with ⟨v, adjacent⟩
  exact ⟨v, (queue.follows u v adjacent).awaits⟩

/-- The node that `unlock` has found is that of the next thread. -/
theorem Queue.next (queue : Queue trace m pc q) {t : Tid} {next : Option Tid}
    (waking : pc t = .wake next) : exists v rest, q = t :: v :: rest ∧ next = some v ∧
      waiting? (pc v) = some (t, true) ∧ Awaits trace v t := by
  have settled : Settled t m (.wake next) := waking ▸ queue.settled t
  rcases settled with ⟨found, rfl⟩
  have isFirst : q.head? = some t := queue.holder (by rw [waking]; trivial)
  cases q with
  | nil => cases isFirst
  | cons h rest =>
      cases isFirst
      cases rest with
      | nil => exact absurd (queue.last t rfl) found
      | cons v rest =>
          have follows := queue.follows t v (adjacent_cons.mpr (Or.inl ⟨rfl, rfl⟩))
          rcases follows.waits with ⟨linked, waits, link⟩
          cases linked with
          | false => exact absurd link found
          | true => exact ⟨v, rest, rfl, link, waits, follows.awaits⟩

end queue

/-! ## A step that leaves the queue as it is -/

section step

variable [DecidableEq Tid] {m m' : McsLock Tid} {pc : Tid -> McsPc Tid} {q : List Tid} {t : Tid}
  {l l' : McsPc Tid} {event : McsEvent Tid}

/-- The words of the other nodes stay as they are. -/
theorem mem_kept (moves : Moves t m l m' l' event) {u : Tid} (different : u ≠ t) :
    (m'.node u).mem = (m.node u).mem := by
  cases moves with
  | initsMem | initsNext =>
      dsimp only
      rw [Function.update_of_ne different]
  | links v tmpWaitIters =>
      dsimp only
      rw [Function.update_apply]
      split
      · next same => rw [same]
      · rfl
  | wakes next target same => cases target <;> rfl
  | _ => rfl

/-- Only its owner changes the link of a node that is not in the queue, and only
the thread that links itself there that of one that is. -/
theorem next_kept (moves : Moves t m l m' l' event) {u : Tid} (others : u ≠ t ∨ Enqueued l)
    (linking : l ≠ .link u) : (m'.node u).next = (m.node u).next := by
  cases moves with
  | initsMem call =>
      dsimp only
      rw [Function.update_apply]
      split
      · next same => rw [same]
      · rfl
  | initsNext call =>
      have different : u ≠ t := others.resolve_right (not_enqueued id rfl)
      dsimp only
      rw [Function.update_of_ne different]
  | links v tmpWaitIters =>
      have different : u ≠ v := by
        rintro rfl
        exact linking rfl
      dsimp only
      rw [Function.update_of_ne different]
  | wakes next target same => cases target <;> rfl
  | _ => rfl

theorem mem_step (queue : Queue trace m pc q) (here : pc t = l) (moves : Moves t m l m' l' event)
    (u : Tid) (initialised : Initialised (Function.update pc t l' u)) :
    (m'.node u).mem = McsNode.unlocked := by
  by_cases itself : u = t
  · subst itself
    rw [Function.update_self] at initialised
    have before : Initialised l -> (m.node u).mem = McsNode.unlocked :=
      fun there => queue.mem u (here.symm ▸ there)
    cases moves with
    | remains pc pc' event apart uninitialised quiet => exact absurd initialised uninitialised
    | initsMem call =>
        dsimp only
        rw [Function.update_self]
    | initsNext call =>
        dsimp only
        rw [Function.update_self]
        exact before trivial
    | links v tmpWaitIters =>
        dsimp only
        rw [Function.update_apply]
        split
        · next same => exact same ▸ before trivial
        · exact before trivial
    | acquires pc pc' event prepared => exact before (initialised_of_prepared prepared)
    | arms v pc pc' waits => exact before (initialised_of_enqueued (enqueued_of_waiting waits))
    | goesOn pc pc' event mine | awaits pc mine =>
        exact before (initialised_of_enqueued (Or.inl mine))
    | clears | wakes => exact initialised.elim
    | _ => exact before trivial
  · rw [Function.update_of_ne itself] at initialised
    rw [mem_kept moves itself]
    exact queue.mem u initialised

theorem settled_of_moves (moves : Moves t m l m' l' event) (before : Settled t m l) :
    Settled t m' l' := by
  cases moves with
  | remains pc pc' event apart uninitialised => exact settled_of_not_initialised uninitialised
  | initsNext call pc' prepared =>
      have unlinked :=
        congrArg McsNode.next (Function.update_self t { m.node t with next := none } m.node)
      cases l' <;> first | exact prepared.elim | exact unlinked
  | acquires pc pc' event prepared free first => rcases first with rfl | rfl <;> trivial
  | enqueues u pc' taken waits | arms u pc pc' before waits => exact settled_of_waiting waits
  | passes u tmpWaitIters pc' hasLock => rcases hasLock with rfl | rfl <;> trivial
  | goesOn pc pc' event mine still => rcases still with rfl | rfl | rfl | rfl <;> trivial
  | awaits pc mine notLast =>
      rcases notLast with rfl | notLast
      · exact before
      · exact notLast
  | finds v linked => exact ⟨Option.some_ne_none v, linked.symm⟩
  | _ => trivial

/-- Nobody else becomes the tail. -/
theorem tail_of_moves (moves : Moves t m l m' l' event) {u : Tid} (different : u ≠ t)
    (last : m'.tail = some u) : m.tail = some u := by
  cases moves with
  | acquires | enqueues => exact absurd (Option.some.inj last).symm different
  | clears => cases last
  | wakes next target same => cases target <;> exact last
  | _ => exact last

theorem settled_step (queue : Queue trace m pc q) (here : pc t = l)
    (moves : Moves t m l m' l' event) (u : Tid) :
    Settled u m' (Function.update pc t l' u) := by
  by_cases itself : u = t
  · subst itself
    rw [Function.update_self]
    exact settled_of_moves moves (here ▸ queue.settled u)
  · rw [Function.update_of_ne itself]
    have settled := queue.settled u
    -- A node that is being linked is in the queue and has not been linked before.
    have link : (m'.node u).next = (m.node u).next ∨
        Enqueued (pc u) ∧ (m.node u).next = none := by
      by_cases linking : l = .link u
      · have adjacent := queue.link (here.trans linking)
        rcases (queue.follows u t adjacent).waits with ⟨linked, waits, unlinked⟩
        rw [here, linking] at waits
        cases waits
        exact Or.inr ⟨(queue.member u).mp adjacent.mem_left, unlinked⟩
      · exact Or.inl (next_kept moves (Or.inl itself) linking)
    cases place : pc u with
    | exchangeTail | tryExchange =>
        rw [place] at settled link
        exact (link.resolve_right fun both => not_enqueued id rfl both.1).trans settled
    | futexWait | sleeping =>
        rw [place] at settled
        exact settled
    | awaitNext =>
        rw [place] at settled
        exact fun last => settled (tail_of_moves moves itself last)
    | wake next =>
        rw [place] at settled
        refine ⟨settled.1, settled.2.trans (link.resolve_right ?_).symm⟩
        exact fun both => settled.1 (settled.2.trans both.2)
    | _ => trivial

/-- While nobody enqueues or leaves nobody enters or leaves the queue. -/
theorem enqueued_of_quiet (moves : Moves t m l m' l' event) (quiet : Quiet event) :
    Enqueued l' <-> Enqueued l := by
  cases moves with
  | remains pc pc' event apart uninitialised quiet =>
      exact iff_of_false (fun enqueued => uninitialised (initialised_of_enqueued enqueued)) apart
  | initsMem call => exact iff_of_false (not_enqueued id rfl) (not_enqueued id rfl)
  | initsNext call pc' prepared =>
      exact iff_of_false (not_enqueued_of_prepared prepared) (not_enqueued id rfl)
  | acquires pc pc' event prepared free first enqueues alone =>
      exact absurd enqueues (not_enqueues_of_quiet quiet t)
  | arms u pc pc' waits waits' =>
      exact iff_of_true (enqueued_of_waiting waits') (enqueued_of_waiting waits)
  | links u tmpWaitIters => exact iff_of_true (Or.inr rfl) (Or.inr rfl)
  | passes u tmpWaitIters pc' hasLock =>
      refine iff_of_true (Or.inl ?_) (Or.inr rfl)
      rcases hasLock with rfl | rfl <;> trivial
  | goesOn pc pc' event mine still quiet =>
      refine iff_of_true (Or.inl ?_) (Or.inl mine)
      rcases still with rfl | rfl | rfl | rfl <;> trivial
  | finds => exact iff_of_true (Or.inl trivial) (Or.inl trivial)
  | awaits pc mine notLast => exact iff_of_true (Or.inl trivial) (Or.inl mine)
  | enqueues | clears | wakes => exact quiet.elim

theorem tail_of_quiet (moves : Moves t m l m' l' event) (quiet : Quiet event) :
    m'.tail = m.tail := by
  cases moves with
  | acquires pc pc' event prepared free first enqueues =>
      exact absurd enqueues (not_enqueues_of_quiet quiet t)
  | enqueues | clears | wakes => exact quiet.elim
  | _ => rfl

/-- A thread that still waits has waited before, with its node not linked yet. -/
theorem waiting_of_quiet (moves : Moves t m l m' l' event) (quiet : Quiet event) {u : Tid}
    {linked : Bool} (waits : waiting? l' = some (u, linked)) : waiting? l = some (u, false) := by
  cases moves with
  | remains pc pc' event apart uninitialised quiet =>
      exact absurd (initialised_of_enqueued (enqueued_of_waiting waits)) uninitialised
  | initsNext call pc' prepared =>
      exact absurd (enqueued_of_waiting waits) (not_enqueued_of_prepared prepared)
  | acquires pc pc' event prepared free first enqueues =>
      exact absurd enqueues (not_enqueues_of_quiet quiet t)
  | arms v pc pc' before now =>
      cases now.symm.trans waits
      exact before
  | links v tmpWaitIters =>
      cases waits
      rfl
  | passes v tmpWaitIters pc' hasLock =>
      rcases hasLock with rfl | rfl <;> cases waits
  | goesOn pc pc' event mine still quiet =>
      rcases still with rfl | rfl | rfl | rfl <;> cases waits
  | enqueues => exact quiet.elim
  | _ => cases waits

/-- A thread that waits and has not been released goes on waiting where it is. -/
theorem waits_kept (moves : Moves t m l m' l' event) {u : Tid} {linked : Bool}
    (waits : waiting? l = some (u, linked))
    (link : (m.node u).next = if linked then some t else none)
    (unreleased : forall tmpWaitIters, l ≠ .pausing u tmpWaitIters) :
    exists linked', waiting? l' = some (u, linked') ∧
      (m'.node u).next = if linked' then some t else none := by
  cases moves with
  | remains pc pc' event apart => exact absurd (enqueued_of_waiting waits) apart
  | acquires pc pc' event prepared =>
      exact absurd (enqueued_of_waiting waits) (not_enqueued_of_prepared prepared)
  | arms v pc pc' before now =>
      cases before.symm.trans waits
      exact ⟨false, now, link⟩
  | links v tmpWaitIters =>
      cases waits
      dsimp only
      rw [Function.update_self]
      exact ⟨true, rfl, rfl⟩
  | passes v tmpWaitIters pc' hasLock =>
      cases waits
      exact absurd rfl (unreleased tmpWaitIters)
  | goesOn pc pc' event mine | awaits pc mine =>
      rw [waiting_of_holds mine] at waits
      cases waits
  | _ => cases waits

section quiet

variable (queue : Queue trace m pc q) (here : pc t = l) (moves : Moves t m l m' l' event)
  (quiet : Quiet event)

include queue here moves

theorem next_of_member {u : Tid} (member : u ∈ q) (others : forall v, Adjacent q u v -> v ≠ t) :
    (m'.node u).next = (m.node u).next := by
  refine next_kept moves ?_ ?_
  · by_cases itself : u = t
    · subst itself
      exact Or.inr (here ▸ (queue.member u).mp member)
    · exact Or.inl itself
  · rintro rfl
    exact others t (queue.link here) rfl

include quiet

theorem follows_quiet (released : forall u tmpWaitIters, l = .pausing u tmpWaitIters ->
    Released trace t) (u v : Tid) (adjacent : Adjacent q u v) :
    Follows (trace ++ [(t, event)]) m' (Function.update pc t l') u v := by
  have follows := queue.follows u v adjacent
  have label : Quiet (t, event).2 := quiet
  have unwoken : (t, event).2 ≠ .woke (some v) := by
    rintro rfl
    exact quiet
  refine ⟨?_, follows.awaits.step (not_enqueues_of_quiet label v) (not_enqueues_of_quiet label u)
    unwoken⟩
  rcases follows.waits with ⟨linked, waits, link⟩
  by_cases itself : v = t
  · subst itself
    rw [Function.update_self]
    refine waits_kept moves (here ▸ waits) link fun tmpWaitIters pausing => ?_
    exact follows.awaits.not_released (released u tmpWaitIters pausing)
  · rw [Function.update_of_ne itself, next_of_member queue here moves adjacent.mem_left]
    · exact ⟨linked, waits, link⟩
    · intro w also
      exact (also.unique queue.nodup adjacent).symm ▸ itself

theorem Queue.quiet_step (released : forall u tmpWaitIters, l = .pausing u tmpWaitIters ->
    Released trace t) : Queue (trace ++ [(t, event)]) m' (Function.update pc t l') q where
  nodup := queue.nodup
  tail := (tail_of_quiet moves quiet).trans queue.tail
  member := by
    intro u
    rw [queue.member]
    by_cases itself : u = t
    · subst itself
      rw [Function.update_self, enqueued_of_quiet moves quiet, here]
    · rw [Function.update_of_ne itself]
  follows := follows_quiet queue here moves quiet released
  last := by
    intro u last
    rw [next_of_member queue here moves (List.mem_of_mem_getLast? last)]
    · exact queue.last u last
    · exact fun v adjacent => absurd adjacent (not_adjacent_last queue.nodup last)
  first := by
    intro v u linked first waits
    have label : Quiet (t, event).2 := quiet
    by_cases itself : v = t
    · subst itself
      rw [Function.update_self] at waits
      have before := waiting_of_quiet moves quiet waits
      exact absurd (queue.first v u false first (here ▸ before)).1 Bool.false_ne_true
    · rw [Function.update_of_ne itself] at waits
      rcases queue.first v u linked first waits with ⟨linked, released⟩
      exact ⟨linked, released.step (not_enqueues_of_quiet label v)⟩
  behind := by
    intro u v enqueued behind
    have before : Enqueued (pc u) := by
      by_cases itself : u = t
      · subst itself
        rw [Function.update_self, enqueued_of_quiet moves quiet] at enqueued
        rwa [here]
      · rwa [Function.update_of_ne itself] at enqueued
    rcases behind_concat.mp behind with now | ⟨-, earlier⟩
    · cases now
      exact quiet.elim
    · exact queue.behind u v before earlier
  mem := mem_step queue here moves
  settled := settled_step queue here moves

end quiet

/-! ## A step that changes the queue -/

/-- Whoever enqueues comes to the end of the queue: it waits behind the last, or
has the lock at once. -/
theorem enqueues_of_moves (moves : Moves t m l m' l' event) (enqueues : Enqueues t (t, event)) :
    m' = { m with tail := some t } ∧ Enqueued l' ∧
      ((exists u, m.tail = some u ∧ waiting? l' = some (u, false) ∧ event = .exchanged (some u)) ∨
        m.tail = none ∧ waiting? l' = none ∧ forall u, event ≠ .exchanged (some u)) := by
  cases moves with
  | acquires pc pc' event prepared free first enqueues alone =>
      rcases first with rfl | rfl <;>
        exact ⟨rfl, Or.inl trivial, Or.inr ⟨free, rfl, alone⟩⟩
  | enqueues u pc' taken waits =>
      exact ⟨rfl, enqueued_of_waiting waits, Or.inl ⟨u, taken, waits, rfl⟩⟩
  | remains pc pc' event apart uninitialised quiet =>
      exact absurd enqueues (not_enqueues_of_quiet quiet t)
  | goesOn pc pc' event mine still quiet => exact absurd enqueues (not_enqueues_of_quiet quiet t)
  | _ => exact absurd enqueues.2 id

section enqueue

variable (queue : Queue trace m pc q) (here : pc t = l) (prepared : Prepared l)

include queue here prepared

omit [DecidableEq Tid] in
/-- A thread that is about to enqueue is none of those in the queue. -/
theorem outside_of_prepared : t ∉ q :=
  fun member => not_enqueued_of_prepared prepared (here ▸ (queue.member t).mp member)

omit [DecidableEq Tid] in
theorem ne_of_member {u : Tid} (member : u ∈ q) : u ≠ t := by
  rintro rfl
  exact outside_of_prepared queue here prepared member

omit [DecidableEq Tid] in
theorem not_enqueues_of_member {u : Tid} (member : u ∈ q) : ¬Enqueues u (t, event) :=
  fun enqueues => ne_of_member queue here prepared member enqueues.1.symm

variable (moves : Moves t m l m' l' event) (enqueues : Enqueues t (t, event))

include moves enqueues

theorem follows_enqueue (u v : Tid) (adjacent : Adjacent (q ++ [t]) u v) :
    Follows (trace ++ [(t, event)]) m' (Function.update pc t l') u v := by
  rcases enqueues_of_moves moves enqueues with ⟨rfl, -, found⟩
  have unwoken : forall w v, (t, event) ≠ (w, McsEvent.woke (some v)) := by
    rintro w v same
    rw [same] at enqueues
    exact enqueues.2
  rcases adjacent_concat.mp adjacent with before | ⟨last, rfl⟩
  · have follows := queue.follows u v before
    refine ⟨?_, follows.awaits.step ?_ ?_ fun woken => unwoken t v (congrArg (Prod.mk t) woken)⟩
    · rw [Function.update_of_ne (ne_of_member queue here prepared before.mem_right)]
      exact follows.waits
    · exact not_enqueues_of_member queue here prepared before.mem_right
    · exact not_enqueues_of_member queue here prepared before.mem_left
  · rcases found with ⟨u', taken, waits, rfl⟩ | ⟨free, -⟩
    · cases (queue.tail.symm.trans taken).symm.trans last
      refine ⟨⟨false, ?_, queue.last u last⟩, behind_concat.mpr (Or.inl rfl), fun w woken => ?_⟩
      · rwa [Function.update_self]
      · rcases since_concat.mp woken with now | ⟨kept, -⟩
        · exact unwoken w v now
        · exact kept enqueues
    · cases (queue.tail.symm.trans free).symm.trans last

/-- Who comes to an empty queue has the lock. -/
theorem first_enqueue (v u : Tid) (linked : Bool) (first : (q ++ [t]).head? = some v)
    (waits : waiting? (Function.update pc t l' v) = some (u, linked)) :
    linked = true ∧ Released (trace ++ [(t, event)]) v := by
  cases q with
  | nil =>
      cases first
      rw [Function.update_self] at waits
      rcases enqueues_of_moves moves enqueues with ⟨-, -, ⟨u', taken, -⟩ | ⟨-, alone, -⟩⟩
      · cases queue.tail.symm.trans taken
      · cases alone.symm.trans waits
  | cons h q =>
      have member : v ∈ h :: q := List.mem_of_mem_head? first
      rw [Function.update_of_ne (ne_of_member queue here prepared member)] at waits
      rcases queue.first v u linked first waits with ⟨linked, released⟩
      exact ⟨linked, released.step (not_enqueues_of_member queue here prepared member)⟩

omit prepared in
theorem behind_enqueue (u v : Tid) (enqueued : Enqueued (Function.update pc t l' u))
    (behind : Behind (trace ++ [(t, event)]) v u) : Adjacent (q ++ [t]) u v := by
  rw [adjacent_concat]
  rcases behind_concat.mp behind with now | ⟨⟨-, kept⟩, before⟩
  · rcases Prod.mk.inj now with ⟨rfl, rfl⟩
    rcases enqueues_of_moves moves enqueues with ⟨-, -, ⟨u', taken, -, event⟩ | ⟨-, -, alone⟩⟩
    · cases event
      exact Or.inr ⟨queue.tail.symm.trans taken, rfl⟩
    · exact absurd rfl (alone u)
  · have different : u ≠ t := by
      rintro rfl
      exact kept enqueues
    rw [Function.update_of_ne different] at enqueued
    exact Or.inl (queue.behind u v enqueued before)

theorem Queue.enqueue_step :
    Queue (trace ++ [(t, event)]) m' (Function.update pc t l') (q ++ [t]) where
  nodup := by
    rw [← List.concat_eq_append]
    exact queue.nodup.concat (outside_of_prepared queue here prepared)
  tail := by
    rcases enqueues_of_moves moves enqueues with ⟨rfl, -⟩
    rw [List.getLast?_concat]
  member := by
    intro u
    rw [List.mem_append, List.mem_singleton, queue.member]
    by_cases itself : u = t
    · subst itself
      rw [Function.update_self]
      exact iff_of_true (Or.inr rfl) (enqueues_of_moves moves enqueues).2.1
    · rw [Function.update_of_ne itself]
      exact or_iff_left itself
  follows := follows_enqueue queue here prepared moves enqueues
  last := by
    intro u last
    rcases enqueues_of_moves moves enqueues with ⟨rfl, -⟩
    rw [List.getLast?_concat] at last
    cases last
    have settled := queue.settled t
    rw [here] at settled
    cases l <;> first | exact settled | exact prepared.elim
  first := first_enqueue queue here prepared moves enqueues
  behind := behind_enqueue queue here moves enqueues
  mem := mem_step queue here moves
  settled := settled_step queue here moves

end enqueue

/-- The only thread of the queue leaves it. -/
theorem Queue.clear_step (queue : Queue trace m pc q) (here : pc t = .clearTail)
    (last : m.tail = some t) (ret : Int) :
    Queue (trace ++ [(t, .cleared ret)]) { m with tail := none }
      (Function.update pc t .outside) [] := by
  have moves : Moves t m .clearTail { m with tail := none } .outside (.cleared ret) :=
    .clears ret last
  have alone : q = [t] :=
    eq_singleton queue.nodup (queue.holder (here ▸ trivial)) (queue.tail.symm.trans last)
  have outside : forall u, ¬Enqueued (Function.update pc t .outside u) := by
    intro u enqueued
    by_cases itself : u = t
    · subst itself
      rw [Function.update_self] at enqueued
      exact not_enqueued id rfl enqueued
    · rw [Function.update_of_ne itself, ← queue.member, alone] at enqueued
      exact itself (List.mem_singleton.mp enqueued)
  exact
    { nodup := List.nodup_nil
      tail := rfl
      member := fun u => iff_of_false List.not_mem_nil (outside u)
      follows := fun u v adjacent => absurd adjacent not_adjacent_nil
      last := fun u last => nomatch last
      first := fun v u linked first => nomatch first
      behind := fun u v enqueued => absurd enqueued (outside u)
      mem := mem_step queue here moves
      settled := settled_step queue here moves }

/-- The first thread leaves the queue and releases the second. -/
theorem Queue.wake_step (queue : Queue trace m pc q) {next target : Option Tid}
    (here : pc t = .wake next) (same : next = none ∨ target = next) :
    exists q', Queue (trace ++ [(t, .woke target)]) (futexWake m target)
      (Function.update pc t .outside) q' := by
  have moves : Moves t m (.wake next) (futexWake m target) .outside (.woke target) :=
    .wakes next target same
  rcases queue.next here with ⟨v, rest, rfl, rfl, linked, awaits⟩
  have found : target = some v := same.resolve_left (Option.some_ne_none v)
  subst found
  have nodup := List.nodup_cons.mp queue.nodup
  have others : forall u, u ∈ v :: rest -> u ≠ t := by
    rintro u member rfl
    exact nodup.1 member
  have quiet : forall u, ¬Enqueues u (t, McsEvent.woke (some v)) := fun u enqueues => enqueues.2
  refine ⟨v :: rest, ?_⟩
  exact
    { nodup := nodup.2
      tail := queue.tail
      member := by
        intro u
        by_cases itself : u = t
        · subst itself
          rw [Function.update_self]
          exact iff_of_false nodup.1 (not_enqueued id rfl)
        · rw [Function.update_of_ne itself, ← queue.member, List.mem_cons (l := v :: rest)]
          exact (or_iff_right itself).symm
      follows := by
        intro u w adjacent
        have follows := queue.follows u w (adjacent_cons.mpr (Or.inr adjacent))
        refine ⟨?_, follows.awaits.step (quiet w) (quiet u) fun woken => ?_⟩
        · rw [Function.update_of_ne (others w adjacent.mem_right)]
          exact follows.waits
        · cases woken
          exact not_adjacent_head nodup.2 rfl adjacent
      last := fun u last => queue.last u last
      first := by
        intro w u linked' first waits
        cases first
        rw [Function.update_of_ne (others v (List.mem_cons_self ..))] at waits
        cases linked.symm.trans waits
        exact ⟨rfl, awaits.released⟩
      behind := by
        intro u w enqueued behind
        have different : u ≠ t := by
          rintro rfl
          rw [Function.update_self] at enqueued
          exact not_enqueued id rfl enqueued
        rw [Function.update_of_ne different] at enqueued
        rcases behind_concat.mp behind with now | ⟨-, before⟩
        · cases now
        · have adjacent := queue.behind u w enqueued before
          exact (adjacent_cons.mp adjacent).resolve_left fun first => different first.1
      mem := mem_step queue here moves
      settled := settled_step queue here moves }

end step

end Mcs

end UserLocks
end Autolock
