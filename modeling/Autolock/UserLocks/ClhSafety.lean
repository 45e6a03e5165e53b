import Autolock.UserLocks.ClhQueue

namespace Autolock
namespace UserLocks

open Concurrency

/-!
# The CLH lock is first come, first served, and never touches a freed node
-/

namespace Clh

variable {Tid Addr : Type}

/-! ## One step of one thread in the ghost state -/

section ownership

variable [DecidableEq Addr] {g : Ghost Tid Addr} {t : Tid} {p : Addr}

theorem Owns.gain (others : forall p' initialised, p' ≠ p -> g.role p' ≠ some (.own t initialised))
    (initialised : Bool) :
    Owns (g.setRole p (some (.own t initialised))).role t (.preparing p initialised) := by
  intro p' initialised'
  by_cases same : p' = p
  · subst same
    simp [Ghost.setRole_self]
  · rw [Ghost.setRole_of_ne g same]
    refine iff_of_false (others p' initialised' same) ?_
    rintro ⟨⟩
    exact same rfl

theorem Owns.lose (others : forall p' initialised, p' ≠ p -> g.role p' ≠ some (.own t initialised))
    {new : Option (Role Tid)} (given : forall initialised, new ≠ some (.own t initialised))
    {place : Stage Addr} (idle : forall p' initialised, place ≠ .preparing p' initialised) :
    Owns (g.setRole p new).role t place := by
  intro p' initialised
  refine iff_of_false ?_ (idle p' initialised)
  by_cases same : p' = p
  · subst same
    rw [Ghost.setRole_self]
    exact given initialised
  · rw [Ghost.setRole_of_ne g same]
    exact others p' initialised same

end ownership

/-- The ghost state agrees with the place of a thread. -/
structure Placed (g : Ghost Tid Addr) (t : Tid) (place : Stage Addr) : Prop where
  here : g.q.At t place
  owns : Owns g.role t place

/-- Every kind of step has a ghost step that the specification allows, that
keeps the explanation of the lock, and that leaves the other threads alone. -/
theorem ghost_step [DecidableEq Addr] {g : Ghost Tid Addr} {lock lock' : ClhLock Addr} {t : Tid}
    {place place' : Stage Addr} {event : ClhEvent} (global : Glob g lock)
    (own : Placed g t place) (effect : StepEffect t lock lock' place place' event) :
    exists g' : Ghost Tid Addr,
      (fifoLock Tid).Steps g.q.queue (observe (t, event)) g'.q.queue ∧
        Glob g' lock' ∧ Placed g' t place' ∧
        forall u, u ≠ t -> forall there, Placed g u there -> Placed g' u there := by
  rcases own with ⟨here, owns⟩
  cases effect with
  | silent unseen =>
      refine ⟨g, ?_, global, ⟨here, owns⟩, fun _ _ _ other => other⟩
      rw [unseen]
      exact .refl _
  | allocates p fresh =>
      refine ⟨g.setRole p (some (.own t false)), .refl _, global.allocates t fresh,
        ⟨here, Owns.gain (fun p' b _ has => ?_) false⟩, fun u different there other =>
        ⟨other.here, other.owns.setRole (fun b => ?_) (fun b => ?_)⟩⟩
      · cases (owns p' b).mp has
      · simp [global.role_eq_none fresh]
      · simp [Ne.symm different]
  | initialises node =>
      have role := (owns node false).mpr rfl
      refine ⟨g.setRole node (some (.own t true)), .refl _, global.initialises role,
        ⟨here, Owns.gain (fun p' b elsewhere has => ?_) true⟩, fun u different there other =>
        ⟨other.here, other.owns.setRole (fun b => ?_) (fun b => ?_)⟩⟩
      · cases (owns p' b).mp has
        exact elsewhere rfl
      · simp [role, Ne.symm different]
      · simp [Ne.symm different]
  | enqueues node =>
      have role := (owns node true).mpr rfl
      have outside : g.q.queue.Outside t := here
      refine ⟨{ g with q := g.q.enqueue t node }.setRole node _, .single ⟨outside, rfl⟩,
        global.enqueues outside role, ⟨?_, Owns.lose (fun p' b elsewhere has => ?_)
        (fun _ => by simp) (fun _ _ => by simp)⟩, fun u different there other =>
        ⟨other.here.enqueue different node, other.owns.setRole (fun b => ?_) (fun b => ?_)⟩⟩
      · refine ⟨_, FifoState.waiting_arrive_self global.wellFormed t, global.freed_le_length,
          ?_, ?_⟩
        · rw [global.tail]
          exact Function.update_of_ne (by omega) _ _
        · exact Function.update_self _ _ _
      · cases (owns p' b).mp has
        exact elsewhere rfl
      · simp [role, Ne.symm different]
      · simp
  | finds_locked node prevNode taken =>
      rcases here with ⟨i, waits, later, rfl, own⟩
      have role := global.role_node later waits.hasTicket.lt_length.le
      refine ⟨g, .refl _, ?_, ⟨⟨i, waits, later, rfl, own⟩, owns⟩, fun _ _ _ other => other⟩
      simpa only [Heap.touch_of_live (global.live_of_role role)] using global
  | finds_unlocked node prevNode free =>
      rcases here with ⟨i, waits, later, rfl, own⟩
      have role := global.role_node later waits.hasTicket.lt_length.le
      -- Only the node of the first ticket is unlocked.
      have first : i = g.q.queue.releases := by
        by_contra further
        exact free ((global.queued_word _ i role).mpr further)
      subst first
      refine ⟨g, .refl _, ?_, ⟨⟨waits, le_antisymm later global.releases_le_freed, rfl, own⟩, ?_⟩,
        fun _ _ _ other => other⟩
      · simpa only [Heap.touch_of_live (global.live_of_role role)] using global
      · intro p b
        rw [owns p b]
        simp
  | frees node prevNode =>
      rcases here with ⟨waits, freed, rfl, own⟩
      have first : g.q.First t := waits.hasTicket
      have role := global.role_node (Nat.le_of_eq freed) first.lt_length.le
      refine ⟨{ g with q := g.q.free }.setRole (g.q.node g.q.queue.releases) none, .refl _,
        global.frees first freed, ⟨⟨waits, congrArg (· + 1) freed, own⟩, Owns.lose
        (fun p' b _ has => ?_) (fun _ => by simp) (fun _ _ => by simp)⟩,
        fun u different there other => ⟨other.here.free first different freed,
        other.owns.setRole (fun b => ?_) (fun b => ?_)⟩⟩
      · cases (owns p' b).mp has
      · simp [role]
      · simp
  | acquires node =>
      rcases here with ⟨waits, freed, own⟩
      have first : g.q.First t := waits.hasTicket
      have free : g.q.queue.grants = g.q.queue.releases :=
        le_antisymm waits.2.2 global.wellFormed.releases_le_grants
      refine ⟨{ g with q := g.q.acquire node }, .single ⟨free, free ▸ waits.1, rfl⟩,
        global.acquires first free node, ⟨⟨FifoState.holding_acquire_self free (free ▸ waits.1),
        freed, own, rfl⟩, fun p b => ?_⟩, fun u different there other =>
        ⟨other.here.acquire first different free node, other.owns⟩⟩
      rw [owns p b]
      simp
  | reads_head node =>
      rcases here with ⟨holds, freed, own, head⟩
      refine ⟨g, .refl _, global,
        ⟨⟨holds, freed, own, head, global.head.trans head⟩, fun p b => ?_⟩,
        fun _ _ _ other => other⟩
      rw [owns p b]
      simp
  | releases node head =>
      rcases here with ⟨holds, freed, rfl, _, rfl⟩
      refine ⟨{ g with q := g.q.release }, .single ⟨holds, rfl⟩, global.releases holds freed,
        ⟨FifoState.outside_release_self global.wellFormed holds, fun p b => ?_⟩,
        fun u different there other => ⟨other.here.release holds different, other.owns⟩⟩
      rw [owns p b]
      simp

/-! ## The invariant of every run -/

/-- The ghost state of a lock that has just been initialised. -/
def Ghost.initial (Tid : Type) [DecidableEq Addr] (p : Addr) : Ghost Tid Addr where
  q := ⟨⟨[], 0, 0⟩, fun _ => p, 0, none⟩
  role := Function.update (fun _ => none) p (some (.queued 0))

theorem glob_initial [DecidableEq Addr] (word : Addr -> UInt32) (p : Addr) :
    Glob (Ghost.initial Tid p) (lockInit word p) where
  wellFormed := FifoState.wellFormed_nil
  releases_le_freed := Nat.le_refl 0
  freed_le_length := Nat.le_refl 0
  tail := rfl
  head := rfl
  live := by
    intro p'
    by_cases same : p' = p <;> simp [Ghost.initial, lockInit, Heap.empty, same]
  queued := by
    intro p' i
    by_cases same : p' = p
    · simp [Ghost.initial, same, eq_comm]
    · simp [Ghost.initial, same, Ne.symm same]
  queued_word := by
    intro p' i has
    by_cases same : p' = p
    · simp only [Ghost.initial, same, Function.update_self, Option.some.injEq,
        Role.queued.injEq] at has
      simp [Ghost.initial, lockInit, same, ← has, ClhNode.unlocked, ClhNode.locked]
    · simp [Ghost.initial, same] at has
  own_word := by
    intro p' u has
    by_cases same : p' = p <;> simp [Ghost.initial, same] at has
  faults := by simp [lockInit, Heap.store_faults, Heap.empty]

/-- Every interleaving of the CLH lock refines the first come, first served
specification, with the memory and every page as the ghost queue explains them. -/
def threadInvariant [DecidableEq Tid] [DecidableEq Addr] (autolock : Bool) :
    ThreadInvariant (program Tid Addr autolock) init
      TransitionSystem.unguarded (fifoLock Tid) observe (fun g : Ghost Tid Addr => g.q.queue) where
  glob := fun _ g lock => Glob g lock
  loc := fun g t l => Placed g t (stage l.pc) ∧ PageOk autolock l
  start := by
    intro s initial
    rcases initial with ⟨⟨word, p, shared⟩, threads⟩
    refine ⟨Ghost.initial Tid p, rfl, shared ▸ glob_initial word p, fun t => ?_⟩
    rcases threads t with ⟨outside, disarmed⟩
    refine ⟨?_, by simpa only [PageOk, outside] using disarmed⟩
    rw [outside]
    refine ⟨fun i _ => by simp [Ghost.initial], fun p' b =>
      iff_of_false (fun has => ?_) (by simp [stage])⟩
    by_cases same : p' = p <;> simp [Ghost.initial, same] at has
  step := by
    intro _ g s t action lock' l' event global locals stepped _
    rcases locals t with ⟨own, ok⟩
    rcases ghost_step global own (step_effect stepped) with ⟨g', steps, global', own', others⟩
    have ok' := step_pageOk (show Clh.step autolock t _ _ _ = _ from stepped) ok
    exact ⟨g', steps, global', ⟨own', ok'⟩,
      fun u different other => ⟨others u different _ other.1, other.2⟩⟩

/-! ## Mutual exclusion and first come, first served -/

theorem GhostQueue.At.of_holdsLock {q : GhostQueue Tid Addr} {t : Tid} {pc : ClhPc Addr}
    (here : q.At t (stage pc)) (holds : pc.holdsLock = true) : q.queue.Holding t := by
  cases pc <;> first | exact here.1 | cases holds

theorem exchanges_eq (trace : List (Tid × ClhEvent)) :
    (trace.flatMap observe).filterMap LockMove.arrival? = exchanges trace := by
  apply filterMap_observe
  rintro ⟨t, event⟩
  cases event <;> rfl

theorem acquisitions_eq (trace : List (Tid × ClhEvent)) :
    (trace.flatMap observe).filterMap LockMove.acquisition? = acquisitions trace := by
  apply filterMap_observe
  rintro ⟨t, event⟩
  cases event <;> rfl

/-- At most one thread is between the return of `lock` and the releasing store
of `unlock`, and the threads acquire in the order of their exchanges. -/
theorem exclusive_and_fifo [DecidableEq Tid] [DecidableEq Addr] (autolock : Bool)
    (trace : List (Tid × ClhEvent)) (s : Machine Tid (ClhLock Addr) (ClhThread Addr))
    (run : (system autolock).Run TransitionSystem.unguarded trace s) :
    (forall t u, (s.thread t).pc.holdsLock = true -> (s.thread u).pc.holdsLock = true -> t = u) ∧
      acquisitions trace <+: exchanges trace := by
  rcases (threadInvariant autolock).run run with ⟨g, specRun, global, locals⟩
  constructor
  · intro t u first second
    exact ((locals t).1.here.of_holdsLock first).unique ((locals u).1.here.of_holdsLock second)
  · rw [← acquisitions_eq, ← exchanges_eq]
    exact (FifoState.explains specRun).acquisitions_ordered

/-- The second thread waits as the next in the queue and enters after the first has left. -/
def handover : List (Nat × ClhAction Nat) :=
  [(0, .callLock), (0, .malloc 1), (0, .run), (0, .run), (0, .run), (0, .run), (0, .run),
    (1, .callLock), (1, .malloc 2), (1, .run), (1, .run), (1, .run), (1, .run), (1, .run),
    (1, .run), (1, .run), (1, .run), (0, .callUnlock), (0, .run), (0, .run), (1, .run), (1, .run),
    (1, .run), (1, .run)]

theorem exclusive_and_fifo_handover :
    let result := (program Nat Nat true).play handover (fresh Nat 0)
    (forall t u, (result.1.thread t).pc.holdsLock = true ->
      (result.1.thread u).pc.holdsLock = true -> t = u) ∧
      acquisitions result.2 <+: exchanges result.2 :=
  exclusive_and_fifo true _ _ (Program.run_play (fresh_init 0) handover (by decide))

/-! ## The life of a node -/

theorem GhostQueue.At.of_heldNode {q : GhostQueue Tid Addr} {t : Tid} {pc : ClhPc Addr}
    {node : Addr} (here : q.At t (stage pc)) (held : pc.heldNode? = some node) :
    q.queue.Holding t ∧ q.freed = q.queue.releases + 1 ∧
      q.node (q.queue.releases + 1) = node ∧ q.head = some node := by
  cases pc <;> cases held
  case holding => exact here
  case unlockLoadHead => exact here
  case unlockStore => exact ⟨here.1, here.2.1, here.2.2.1, here.2.2.2.1⟩

/-- The node of the holder is live and is what `lock->head` points to. -/
theorem Glob.heldNode {g : Ghost Tid Addr} {lock : ClhLock Addr} (global : Glob g lock) {t : Tid}
    {pc : ClhPc Addr} {node : Addr} (here : g.q.At t (stage pc))
    (held : pc.heldNode? = some node) : lock.head = some node ∧ lock.heap.live node = true := by
  rcases here.of_heldNode held with ⟨holds, freed, own, head⟩
  have role := global.role_node (Nat.le_of_eq freed) holds.hasTicket.lt_length
  exact ⟨global.head.trans head, global.live_of_role (own ▸ role)⟩

/-- The node that a page is armed for is live. -/
theorem Glob.watched_live {g : Ghost Tid Addr} {lock : ClhLock Addr} (global : Glob g lock)
    {t : Tid} {autolock : Bool} {l : ClhThread Addr} (here : g.q.At t (stage l.pc))
    (ok : PageOk autolock l) {p : Addr} (armed : l.page.watchMem = some p) :
    lock.heap.live p = true := by
  rcases ok.armed_stage armed with ⟨node, waits | granted⟩
  · rw [waits] at here
    rcases here with ⟨i, ticket, later, rfl, _⟩
    exact global.live_of_role (global.role_node later ticket.hasTicket.lt_length.le)
  · rw [granted] at here
    rcases here with ⟨ticket, freed, rfl, _⟩
    exact global.live_of_role
      (global.role_node (Nat.le_of_eq freed) ticket.hasTicket.lt_length.le)

/-- With every thread outside, the node at the tail is the only live one. -/
theorem Glob.live_iff_tail {g : Ghost Tid Addr} {lock : ClhLock Addr} (global : Glob g lock)
    (apart : forall t, Placed g t .apart) (p : Addr) :
    lock.heap.live p = true <-> p = lock.tail := by
  have everyReleased : g.q.queue.arrivals.length ≤ g.q.queue.releases := by
    by_contra pending
    exact (apart _).here g.q.queue.releases (Nat.le_refl _)
      (List.getElem?_eq_getElem (Nat.lt_of_not_le pending))
  have freed : g.q.freed = g.q.queue.arrivals.length :=
    le_antisymm global.freed_le_length (everyReleased.trans global.releases_le_freed)
  rw [global.live p, global.tail]
  constructor
  · intro live
    rcases Option.isSome_iff_exists.mp live with ⟨role, has⟩
    cases role with
    | queued i =>
        rcases (global.queued p i).mp has with ⟨rfl, later, inside⟩
        rw [show i = g.q.queue.arrivals.length by omega]
    | own t initialised => cases ((apart t).owns p initialised).mp has
  · rintro rfl
    rw [global.role_node (Nat.le_of_eq freed) (Nat.le_refl _)]
    rfl

/-- No run touches a freed node; the kernel reads live nodes only; `unlock`
finds the holder's own live node; and once every thread is outside, `destroy`
frees what is left, so that every allocation has been freed exactly once. -/
theorem nodes_live_then_freed_once [DecidableEq Tid] [DecidableEq Addr] (autolock : Bool)
    (trace : List (Tid × ClhEvent)) (s : Machine Tid (ClhLock Addr) (ClhThread Addr))
    (run : (system autolock).Run TransitionSystem.unguarded trace s) :
    s.shared.heap.faults = [] ∧
      (forall t p, (s.thread t).page.watchMem = some p -> s.shared.heap.live p = true) ∧
      (forall t node, (s.thread t).pc.heldNode? = some node ->
        s.shared.head = some node ∧ s.shared.heap.live node = true) ∧
      (forall t node head, (s.thread t).pc = .unlockStore node head -> head = some node) ∧
      ((forall t, (s.thread t).pc = .outside) ->
        (destroy s.shared).faults = [] ∧
          (forall p, (destroy s.shared).live p = false ∧
            (destroy s.shared).allocs p = (destroy s.shared).frees p) ∧
          forall t, (s.thread t).page.watchMem = none) := by
  rcases (threadInvariant autolock).run run with ⟨g, _, global, locals⟩
  refine ⟨global.faults, ?_, ?_, ?_, ?_⟩
  · intro t p armed
    exact global.watched_live (locals t).1.here (locals t).2 armed
  · intro t node held
    exact global.heldNode (locals t).1.here held
  · intro t node head storing
    have here := (locals t).1.here
    rw [storing] at here
    exact here.2.2.2.2
  · intro outside
    have apart : forall t, Placed g t .apart := fun t => by
      have placed := (locals t).1
      rwa [outside t] at placed
    have liveTail := (global.live_iff_tail apart s.shared.tail).mpr rfl
    refine ⟨?_, ?_, ?_⟩
    · rw [destroy, Heap.free_faults liveTail, global.faults]
    · intro p
      have dead : (destroy s.shared).live p = false := by
        rw [destroy, Heap.free_live liveTail]
        by_cases same : p = s.shared.tail
        · rw [same, Function.update_self]
        · rw [Function.update_of_ne same]
          exact Bool.eq_false_iff.mpr fun live => same ((global.live_iff_tail apart p).mp live)
      exact ⟨dead, Heap.allocs_eq_frees dead⟩
    · intro t
      have ok := (locals t).2
      simpa only [PageOk, outside t] using ok

/-- After the handover both threads unlock, and the first locks again with an
address that the second has freed. -/
def reuse : List (Nat × ClhAction Nat) :=
  handover ++ [(1, .callUnlock), (1, .run), (1, .run), (0, .callLock), (0, .malloc 1), (0, .run),
    (0, .run), (0, .run), (0, .run), (0, .run), (0, .callUnlock), (0, .run), (0, .run)]

theorem nodes_live_then_freed_once_reuse :
    let s := ((program Nat Nat true).play reuse (fresh Nat 0)).1
    s.shared.heap.faults = [] ∧
      (forall t p, (s.thread t).page.watchMem = some p -> s.shared.heap.live p = true) ∧
      (forall t node, (s.thread t).pc.heldNode? = some node ->
        s.shared.head = some node ∧ s.shared.heap.live node = true) ∧
      (forall t node head, (s.thread t).pc = .unlockStore node head -> head = some node) ∧
      ((forall t, (s.thread t).pc = .outside) ->
        (destroy s.shared).faults = [] ∧
          (forall p, (destroy s.shared).live p = false ∧
            (destroy s.shared).allocs p = (destroy s.shared).frees p) ∧
          forall t, (s.thread t).page.watchMem = none) :=
  nodes_live_then_freed_once true _ _ (Program.run_play (fresh_init 0) reuse (by decide))

end Clh

end UserLocks
end Autolock
