import Autolock.Concurrency.Drain
import Autolock.UserLocks.ClhRunnable

namespace Autolock
namespace UserLocks

open Concurrency

/-!
# The CLH lock does not get stuck

The thread with the first ticket waits on an unlocked node or has the lock, so
that the kernel lets it go on until it has unlocked.  Without a first ticket
nobody is in the queue, and a thread that is still preparing its node finds the
node at the tail unlocked.  The allocator must always have a free address.
-/

namespace Clh

variable {Tid Addr : Type}

/-- A thread goes on with what it has begun. -/
def goesOn : ClhAction Addr -> Bool
  | .run | .malloc _ | .callUnlock => true
  | .elsewhere _ _ | .callLock | .callTrylock => false

/-- The kernel schedules the thread, which goes on with what it has begun. -/
def scheduled (_ : Tid) (action : ClhAction Addr) (lock : ClhLock Addr) (l : ClhThread Addr) :
    Bool :=
  !l.page.held lock.heap.word && goesOn action

variable [DecidableEq Addr] {autolock : Bool} {t : Tid} {lock lock' : ClhLock Addr}
  {l l' : ClhThread Addr} {page : KernelAutolockAbi Addr} {event : ClhEvent}
  {node prevNode : Addr}

abbrev Finishes (autolock : Bool) (t : Tid) (lock : ClhLock Addr) (l : ClhThread Addr) :=
  (program Tid Addr autolock).Finishes scheduled (fun l => l.pc = .outside) t lock l

/-- The node that the thread waits on, if there is one, is unlocked. -/
def MayRun (lock : ClhLock Addr) (pc : ClhPc Addr) : Prop :=
  forall p, pc.prevNode? = some p -> lock.heap.word p = ClhNode.unlocked

/-- A thread that waits for nothing is not held back, so that any step of it is
a scheduled one. -/
theorem Finishes.freely (action : ClhAction Addr) (ok : PageOk autolock l)
    (may : MayRun lock l.pc) (on : goesOn action = true)
    (stepped : step autolock t action lock l = some (lock', l', event))
    (rest : PageOk autolock l' -> Finishes autolock t lock' l') :
    Finishes autolock t lock l := by
  refine .step action ?_ stepped (rest (step_pageOk stepped ok))
  rw [scheduled, ok.runnable may, on]
  rfl

omit [DecidableEq Addr] in
theorem mayRun_of_not_waiting {pc : ClhPc Addr} (apart : pc.prevNode? = none) : MayRun lock pc := by
  intro p waits
  rw [apart] at waits
  cases waits

omit [DecidableEq Addr] in
theorem mayRun_of_unlocked {pc : ClhPc Addr} (waits : pc.prevNode? = some prevNode)
    (free : lock.heap.word prevNode = ClhNode.unlocked) : MayRun lock pc := by
  intro p waits'
  rw [← Option.some.inj (waits.symm.trans waits')]
  exact free

/-! ## From the lock to the outside -/

theorem finishes_unlockStore (head : Option Addr)
    (ok : PageOk autolock ⟨.unlockStore node head, page⟩) :
    Finishes autolock t lock ⟨.unlockStore node head, page⟩ :=
  .freely .run ok (mayRun_of_not_waiting rfl) rfl rfl fun _ => .done rfl

theorem finishes_unlockLoadHead (ok : PageOk autolock ⟨.unlockLoadHead node, page⟩) :
    Finishes autolock t lock ⟨.unlockLoadHead node, page⟩ :=
  .freely .run ok (mayRun_of_not_waiting rfl) rfl rfl (finishes_unlockStore _)

theorem finishes_holding (ok : PageOk autolock ⟨.holding node, page⟩) :
    Finishes autolock t lock ⟨.holding node, page⟩ :=
  .freely .callUnlock ok (mayRun_of_not_waiting rfl) rfl rfl finishes_unlockLoadHead

theorem finishes_saveHead (ok : PageOk autolock ⟨.saveHead node, page⟩) :
    Finishes autolock t lock ⟨.saveHead node, page⟩ :=
  .freely .run ok (mayRun_of_not_waiting rfl) rfl rfl finishes_holding

/-! ## Past an unlocked node -/

section unlocked

variable (free : lock.heap.word prevNode = ClhNode.unlocked)

include free

theorem finishes_nodeFree (ok : PageOk autolock ⟨.nodeFree node prevNode, page⟩) :
    Finishes autolock t lock ⟨.nodeFree node prevNode, page⟩ :=
  .freely .run ok (mayRun_of_unlocked rfl free) rfl rfl finishes_saveHead

theorem finishes_hasLock (ok : PageOk autolock ⟨hasLock autolock node prevNode, page⟩) :
    Finishes autolock t lock ⟨hasLock autolock node prevNode, page⟩ := by
  cases autolock with
  | false => exact finishes_nodeFree free ok
  | true => exact .freely .run ok (mayRun_of_unlocked rfl free) rfl rfl (finishes_nodeFree free)

/-- A read of the unlocked node lets the thread go on. -/
theorem finishes_loadPrev {whenLocked whenUnlocked : ClhPc Addr} (ok : PageOk autolock l)
    (waits : l.pc.prevNode? = some prevNode)
    (loads : step autolock t .run lock l = loadPrev lock l prevNode whenLocked whenUnlocked)
    (rest : forall lock : ClhLock Addr, lock.heap.word prevNode = ClhNode.unlocked ->
      PageOk autolock { l with pc := whenUnlocked } ->
      Finishes autolock t lock { l with pc := whenUnlocked }) : Finishes autolock t lock l := by
  have notLocked : ¬lock.heap.word prevNode = ClhNode.locked := by
    rw [free]
    decide
  refine .freely .run ok (mayRun_of_unlocked waits free) rfl loads ?_
  rw [if_neg notLocked]
  refine rest _ ?_
  rw [Heap.touch_word]
  exact free

theorem finishes_nextInQueue (ok : PageOk autolock ⟨.nextInQueue node prevNode, page⟩) :
    Finishes autolock t lock ⟨.nextInQueue node prevNode, page⟩ :=
  finishes_loadPrev free ok rfl rfl fun _ free => finishes_hasLock free

theorem finishes_pausing (tmpWaitIters : UInt32)
    (ok : PageOk autolock ⟨.pausing node prevNode tmpWaitIters, page⟩) :
    Finishes autolock t lock ⟨.pausing node prevNode tmpWaitIters, page⟩ :=
  finishes_loadPrev free ok rfl rfl fun _ free => finishes_hasLock free

theorem finishes_yielding (ok : PageOk autolock ⟨.yielding node prevNode, page⟩) :
    Finishes autolock t lock ⟨.yielding node prevNode, page⟩ :=
  finishes_loadPrev free ok rfl rfl fun _ free => finishes_hasLock free

theorem finishes_testHead (ok : PageOk autolock ⟨.testHead node prevNode, page⟩) :
    Finishes autolock t lock ⟨.testHead node prevNode, page⟩ := by
  by_cases next : lock.head = some prevNode
  · exact .freely .run ok (mayRun_of_unlocked rfl free) rfl (if_pos next) (finishes_nextInQueue free)
  · exact .freely .run ok (mayRun_of_unlocked rfl free) rfl (if_neg next) (finishes_pausing free _)

theorem finishes_setWatchMem (ok : PageOk autolock ⟨.setWatchMem node prevNode, page⟩) :
    Finishes autolock t lock ⟨.setWatchMem node prevNode, page⟩ :=
  .freely .run ok (mayRun_of_unlocked rfl free) rfl rfl (finishes_testHead free)

theorem finishes_setWatchNeq (ok : PageOk autolock ⟨.setWatchNeq node prevNode, page⟩) :
    Finishes autolock t lock ⟨.setWatchNeq node prevNode, page⟩ :=
  .freely .run ok (mayRun_of_unlocked rfl free) rfl rfl (finishes_setWatchMem free)

theorem finishes_setWatchFor (ok : PageOk autolock ⟨.setWatchFor node prevNode, page⟩) :
    Finishes autolock t lock ⟨.setWatchFor node prevNode, page⟩ :=
  .freely .run ok (mayRun_of_unlocked rfl free) rfl rfl (finishes_setWatchNeq free)

theorem finishes_testPrev (ok : PageOk autolock ⟨.testPrev node prevNode, page⟩) :
    Finishes autolock t lock ⟨.testPrev node prevNode, page⟩ :=
  finishes_loadPrev free ok rfl rfl fun _ free => finishes_nodeFree free

end unlocked

/-- A thread that waits on an unlocked node, or has passed it, can get out. -/
theorem finishes_of_queued (ok : PageOk autolock l)
    (queued : l.pc.prevNode?.isSome = true ∨ l.pc.hasPassed = true)
    (may : MayRun lock l.pc) : Finishes autolock t lock l := by
  rcases l with ⟨pc, page⟩
  cases pc with
  | outside => exact .done rfl
  | nodeNew => cases queued <;> contradiction
  | nodeInit => cases queued <;> contradiction
  | exchangeTail => cases queued <;> contradiction
  | testPrev => exact finishes_testPrev (may _ rfl) ok
  | setWatchFor => exact finishes_setWatchFor (may _ rfl) ok
  | setWatchNeq => exact finishes_setWatchNeq (may _ rfl) ok
  | setWatchMem => exact finishes_setWatchMem (may _ rfl) ok
  | testHead => exact finishes_testHead (may _ rfl) ok
  | nextInQueue => exact finishes_nextInQueue (may _ rfl) ok
  | pausing => exact finishes_pausing (may _ rfl) _ ok
  | yielding => exact finishes_yielding (may _ rfl) ok
  | disarm =>
      exact .freely .run ok (mayRun_of_unlocked rfl (may _ rfl)) rfl rfl (finishes_nodeFree (may _ rfl))
  | nodeFree => exact finishes_nodeFree (may _ rfl) ok
  | saveHead => exact finishes_saveHead ok
  | holding => exact finishes_holding ok
  | unlockLoadHead => exact finishes_unlockLoadHead ok
  | unlockStore => exact finishes_unlockStore _ ok

/-! ## Into an empty queue -/

theorem finishes_exchangeTail (free : lock.heap.word lock.tail = ClhNode.unlocked)
    (ok : PageOk autolock ⟨.exchangeTail node, page⟩) :
    Finishes autolock t lock ⟨.exchangeTail node, page⟩ :=
  .freely .run ok (mayRun_of_not_waiting rfl) rfl rfl (finishes_testPrev (by exact free))

theorem finishes_nodeInit (free : lock.heap.word lock.tail = ClhNode.unlocked)
    (different : lock.tail ≠ node) (ok : PageOk autolock ⟨.nodeInit node, page⟩) :
    Finishes autolock t lock ⟨.nodeInit node, page⟩ := by
  refine .freely .run ok (mayRun_of_not_waiting rfl) rfl rfl (finishes_exchangeTail ?_)
  rw [Heap.store_word, Function.update_of_ne different]
  exact free

theorem finishes_nodeNew (free : lock.heap.word lock.tail = ClhNode.unlocked)
    (live : lock.heap.live lock.tail = true) {p : Addr} (fresh : lock.heap.live p = false)
    (ok : PageOk autolock ⟨.nodeNew, page⟩) : Finishes autolock t lock ⟨.nodeNew, page⟩ := by
  refine .freely (.malloc p) ok (mayRun_of_not_waiting rfl) rfl (dif_pos fresh)
    (finishes_nodeInit free fun (same : lock.tail = p) => ?_)
  rw [← same, live] at fresh
  cases fresh

/-! ## Every reachable state -/

theorem StepEffect.finite_live {place place' : Stage Addr}
    (effect : StepEffect t lock lock' place place' event)
    (finite : { p | lock.heap.live p = true }.Finite) :
    { p | lock'.heap.live p = true }.Finite := by
  cases effect with
  | allocates p fresh =>
      refine (finite.insert p).subset fun q live => ?_
      by_cases same : q = p
      · exact Or.inl same
      · exact Or.inr (by simpa [same] using live)
  | frees node prevNode =>
      refine finite.subset fun q live => ?_
      have still : (lock.heap.free prevNode).live q = true := live
      by_cases wasLive : lock.heap.live prevNode = true
      · by_cases same : q = prevNode
        · exact same ▸ wasLive
        · rwa [Heap.free_live wasLive, Function.update_of_ne same] at still
      · rwa [Heap.free, dif_neg wasLive] at still
  | releases node head =>
      cases head with
      | none => exact finite
      | some p => simpa [Heap.storeThrough] using finite
  | initialises | finds_locked | finds_unlocked => simpa using finite
  | silent | enqueues | acquires | reads_head => exact finite

section runs

variable [DecidableEq Tid] {trace : List (Tid × ClhEvent)}
  {s : Machine Tid (ClhLock Addr) (ClhThread Addr)}

/-- In a finite run only finitely many nodes are live. -/
theorem finite_live (run : (system autolock).Run TransitionSystem.unguarded trace s) :
    { p | s.shared.heap.live p = true }.Finite := by
  refine run.invariant (fun _ s => { p | s.shared.heap.live p = true }.Finite) ?_ ?_
  · rintro s ⟨⟨word, p, shared⟩, _⟩
    refine (Set.finite_singleton p).subset fun q live => ?_
    by_contra different
    change s.shared.heap.live q = true at live
    rw [shared] at live
    simp [lockInit, Heap.empty, Function.update_of_ne different] at live
  · intro _ s label _ finite moved _
    rcases Program.system_next moved with ⟨action, lock', l', stepped, rfl⟩
    exact (step_effect (show Clh.step autolock label.1 _ _ _ = _ from stepped)).finite_live finite

theorem exists_fresh [Infinite Addr]
    (run : (system autolock).Run TransitionSystem.unguarded trace s) :
    exists p, s.shared.heap.live p = false := by
  rcases (finite_live run).exists_notMem with ⟨p, dead⟩
  exact ⟨p, Bool.eq_false_iff.mpr dead⟩

end runs

section ghost

variable {g : Ghost Tid Addr} {pc : ClhPc Addr}

omit [DecidableEq Addr] in
theorem stage_of_prevNode {p : Addr} (waits : pc.prevNode? = some p) :
    exists node, stage pc = .waiting node p ∨ stage pc = .granted node p := by
  cases pc <;> cases waits <;> first
    | exact ⟨_, Or.inl rfl⟩
    | exact ⟨_, Or.inr rfl⟩

omit [DecidableEq Addr] in
/-- A thread with a ticket waits on a node or has passed one. -/
theorem queued_of_first (here : g.q.At t (stage pc)) (first : g.q.First t) :
    pc.prevNode?.isSome = true ∨ pc.hasPassed = true := by
  cases pc <;> first
    | exact Or.inl rfl
    | exact Or.inr rfl
    | exact absurd first.1 (here _ (Nat.le_refl _))

omit [DecidableEq Addr] in
/-- The node that the first ticket waits on is unlocked. -/
theorem Glob.first_mayRun (global : Glob g lock) (here : g.q.At t (stage pc))
    (first : g.q.First t)
    (flags : forall p, (stage pc).queued? = some p -> HasFlag lock.heap.word p) :
    MayRun lock pc := by
  intro p waits
  rcases stage_of_prevNode waits with ⟨node, at_stage | at_stage⟩ <;> rw [at_stage] at here flags
  · rcases here with ⟨i, ticket, later, rfl, _⟩
    have role := global.role_node later ticket.hasTicket.lt_length.le
    have isFirst := global.wellFormed.unique t i _ ticket.hasTicket first
    exact (flags _ rfl).resolve_right fun taken => (global.queued_word _ i role).mp taken isFirst
  · exact global.passed_unlocked here (flags _ rfl)

omit [DecidableEq Addr] in
/-- Without a first ticket the node at the tail is live and unlocked. -/
theorem Glob.empty_tail (global : Glob g lock) (flag : HasFlag lock.heap.word lock.tail)
    (empty : g.q.queue.arrivals.length ≤ g.q.queue.releases) :
    lock.heap.live lock.tail = true ∧ lock.heap.word lock.tail = ClhNode.unlocked := by
  have freed : g.q.freed = g.q.queue.arrivals.length :=
    le_antisymm global.freed_le_length (empty.trans global.releases_le_freed)
  have role := global.role_node (Nat.le_of_eq freed) (Nat.le_refl _)
  rw [← global.tail] at role
  refine ⟨global.live_of_role role, flag.resolve_right fun taken => ?_⟩
  refine (global.queued_word _ _ role).mp taken (le_antisymm empty ?_)
  exact global.releases_le_freed.trans global.freed_le_length

/-- A thread that is not in the empty queue can go through it. -/
theorem Glob.finishes_apart (global : Glob g lock) (placed : Placed g t (stage pc))
    (flag : HasFlag lock.heap.word lock.tail)
    (empty : g.q.queue.arrivals.length ≤ g.q.queue.releases)
    (fresh : exists p, lock.heap.live p = false) (ok : PageOk autolock ⟨pc, page⟩) :
    Finishes autolock t lock ⟨pc, page⟩ := by
  rcases global.empty_tail flag empty with ⟨live, free⟩
  have notFirst : forall i, g.q.queue.HasTicket t i -> False := by
    intro i ticket
    have := ticket.lt_length
    have := ticket.2
    omega
  cases pc with
  | outside => exact .done rfl
  | nodeNew =>
      rcases fresh with ⟨p, dead⟩
      exact finishes_nodeNew free live dead ok
  | nodeInit node =>
      refine finishes_nodeInit free ?_ ok
      rintro rfl
      have role := (placed.owns lock.tail false).mpr rfl
      have inQueue := (global.queued lock.tail g.q.queue.arrivals.length).mpr
        ⟨global.tail.symm, global.freed_le_length, Nat.le_refl _⟩
      rw [role] at inQueue
      cases inQueue
  | exchangeTail => exact finishes_exchangeTail free ok
  | testPrev | setWatchFor | setWatchNeq | setWatchMem | testHead | nextInQueue | pausing
  | yielding =>
      rcases placed.here with ⟨i, waits, _⟩
      exact (notFirst i waits.hasTicket).elim
  | disarm | nodeFree | saveHead | holding | unlockLoadHead | unlockStore =>
      exact (notFirst _ placed.here.1.hasTicket).elim

end ghost

section runs

variable [DecidableEq Tid] [Infinite Addr]

/-- In every reachable state that is not at rest some busy thread can get out alone. -/
theorem somebody_finishes (trace : List (Tid × ClhEvent))
    (s : Machine Tid (ClhLock Addr) (ClhThread Addr))
    (run : (system autolock).Run TransitionSystem.unguarded trace s)
    (busy : exists t, (s.thread t).pc ≠ .outside) :
    exists t, (s.thread t).pc ≠ .outside ∧ Finishes autolock t s.shared (s.thread t) := by
  rcases (threadInvariant autolock).run run with ⟨g, _, global, locals⟩
  rcases run_hasFlag run with ⟨tail, flags⟩
  by_cases empty : g.q.queue.arrivals.length ≤ g.q.queue.releases
  · rcases busy with ⟨t, inside⟩
    exact ⟨t, inside, global.finishes_apart (locals t).1 tail empty (exists_fresh run) (locals t).2⟩
  · obtain ⟨t, atFront⟩ : exists t, g.q.queue.arrivals[g.q.queue.releases]? = some t :=
      ⟨_, List.getElem?_eq_getElem (Nat.lt_of_not_le empty)⟩
    have first : g.q.First t := ⟨atFront, Nat.le_refl _⟩
    have here := (locals t).1.here
    have queued := queued_of_first here first
    refine ⟨t, fun outside => ?_,
      finishes_of_queued (locals t).2 queued (global.first_mayRun here first (flags t))⟩
    rw [outside] at queued
    rcases queued with waits | passed
    · cases waits
    · cases passed

/-- The CLH lock as the kernel schedules it once no thread begins anything new. -/
abbrev scheduledSystem (Tid : Type) [DecidableEq Tid] (autolock : Bool) :=
  ((program Tid Addr autolock).confine scheduled).system init

/-- From every reachable state all threads get out of `lock` and `unlock`,
although the kernel holds back whom the pages tell it to. -/
theorem clh_comes_to_rest (autolock : Bool) (trace : List (Tid × ClhEvent))
    (s : Machine Tid (ClhLock Addr) (ClhThread Addr))
    (run : (system autolock).Run TransitionSystem.unguarded trace s) :
    exists labels s', (scheduledSystem Tid autolock).Steps s labels s' ∧
      forall t, (s'.thread t).pc = .outside :=
  Program.drains (fun l => l.pc = .outside) (fun _ initial t => (initial.2 t).1)
    somebody_finishes run

end runs

/-- The first thread has the lock, the second waits behind it with its page armed. -/
theorem clh_comes_to_rest_waiting :
    let s := ((program Nat Nat true).play (handover.take 17) (fresh Nat 0)).1
    (s.thread 1).page.held s.shared.heap.word = true ∧
      exists labels s', (scheduledSystem Nat true).Steps s labels s' ∧
        forall t, (s'.thread t).pc = .outside :=
  ⟨by decide, clh_comes_to_rest true _ _
    (Program.run_play (fresh_init 0) (handover.take 17) (by decide))⟩

end Clh

end UserLocks
end Autolock
