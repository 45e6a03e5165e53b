import Autolock.UserLocks.ClhSteps

namespace Autolock
namespace UserLocks

open Concurrency

/-!
# The implicit queue made explicit

The ghost state keeps the queue: ticket `i` waits on the node `i` and owns the
node `i + 1`.  A role says who answers for an address: a node that is in the
queue, or one that a thread has allocated and not yet enqueued.  An address is
live exactly when it has a role, so the allocator may hand out a freed address
again without disturbing the queue.
-/

namespace Clh

variable {Tid Addr : Type}

/-! ## The ghost queue -/

/-- Who answers for a live address. -/
inductive Role (Tid : Type) where
  | queued (i : Nat)
  | own (t : Tid) (initialised : Bool)

/-- The explicit queue: the tickets, the node that each ticket waits on, how
many of these nodes have been freed, and the last value of `lock->head`. -/
structure GhostQueue (Tid Addr : Type) where
  queue : FifoState Tid
  node : Nat -> Addr
  freed : Nat
  head : Option Addr

namespace GhostQueue

/-- The exchange on `lock->tail`. -/
def enqueue (q : GhostQueue Tid Addr) (t : Tid) (node : Addr) : GhostQueue Tid Addr :=
  { q with
    queue := q.queue.arrive t
    node := Function.update q.node (q.queue.arrivals.length + 1) node }

/-- The owner of the first ticket frees the node it waited on. -/
def free (q : GhostQueue Tid Addr) : GhostQueue Tid Addr :=
  { q with freed := q.freed + 1 }

def acquire (q : GhostQueue Tid Addr) (node : Addr) : GhostQueue Tid Addr :=
  { q with queue := q.queue.acquire, head := some node }

def release (q : GhostQueue Tid Addr) : GhostQueue Tid Addr :=
  { q with queue := q.queue.release }

/-- The place of a thread in the queue. -/
def At (q : GhostQueue Tid Addr) (t : Tid) : Stage Addr -> Prop
  | .apart | .preparing _ _ => q.queue.Outside t
  | .waiting node prevNode =>
      exists i, q.queue.Waiting t i ∧ q.freed ≤ i ∧ q.node i = prevNode ∧ q.node (i + 1) = node
  | .granted node prevNode =>
      q.queue.Waiting t q.queue.releases ∧ q.freed = q.queue.releases ∧
        q.node q.queue.releases = prevNode ∧ q.node (q.queue.releases + 1) = node
  | .entered node =>
      q.queue.Waiting t q.queue.releases ∧ q.freed = q.queue.releases + 1 ∧
        q.node (q.queue.releases + 1) = node
  | .holding node =>
      q.queue.Holding t ∧ q.freed = q.queue.releases + 1 ∧
        q.node (q.queue.releases + 1) = node ∧ q.head = some node
  | .releasing node head =>
      q.queue.Holding t ∧ q.freed = q.queue.releases + 1 ∧
        q.node (q.queue.releases + 1) = node ∧ q.head = some node ∧ head = some node

/-- The thread has the first ticket of the queue. -/
def First (q : GhostQueue Tid Addr) (t : Tid) : Prop :=
  q.queue.HasTicket t q.queue.releases

theorem First.unique {q : GhostQueue Tid Addr} {t u : Tid} (mine : q.First t)
    (yours : q.First u) : t = u :=
  Option.some.inj (mine.1.symm.trans yours.1)

/-! ### A move of one thread leaves every other thread where it is -/

section others

variable {q : GhostQueue Tid Addr} {t u : Tid} {place : Stage Addr}

theorem At.enqueue (here : q.At u place) (different : u ≠ t) (node : Addr) :
    (q.enqueue t node).At u place := by
  have kept : forall {i}, q.queue.HasTicket u i ->
      (q.enqueue t node).node i = q.node i ∧ (q.enqueue t node).node (i + 1) = q.node (i + 1) := by
    intro i ticket
    have inside := ticket.lt_length
    exact ⟨Function.update_of_ne (by omega) _ _, Function.update_of_ne (by omega) _ _⟩
  cases place with
  | apart => exact FifoState.Outside.arrive here different
  | preparing => exact FifoState.Outside.arrive here different
  | waiting =>
      rcases here with ⟨i, waits, later, prev, own⟩
      rcases kept waits.hasTicket with ⟨same, sameNext⟩
      exact ⟨i, waits.arrive t, later, same.trans prev, sameNext.trans own⟩
  | granted =>
      rcases here with ⟨waits, freed, prev, own⟩
      rcases kept waits.hasTicket with ⟨same, sameNext⟩
      exact ⟨waits.arrive t, freed, same.trans prev, sameNext.trans own⟩
  | entered =>
      rcases here with ⟨waits, freed, own⟩
      exact ⟨waits.arrive t, freed, (kept waits.hasTicket).2.trans own⟩
  | holding =>
      rcases here with ⟨holds, freed, own, head⟩
      exact ⟨holds.arrive t, freed, (kept holds.hasTicket).2.trans own, head⟩
  | releasing =>
      rcases here with ⟨holds, freed, own, head, loaded⟩
      exact ⟨holds.arrive t, freed, (kept holds.hasTicket).2.trans own, head, loaded⟩

/-- While another thread is first, a thread is outside the queue or waits
further back, and a move that keeps the nodes leaves it there. -/
theorem At.behind {q' : GhostQueue Tid Addr} (here : q.At u place) (first : q.First t)
    (different : u ≠ t) (nodes : q'.node = q.node)
    (outside : q.queue.Outside u -> q'.queue.Outside u)
    (waiting : forall i, q.queue.Waiting u i -> q.freed ≤ i -> i ≠ q.queue.releases ->
      q'.queue.Waiting u i ∧ q'.freed ≤ i) : q'.At u place := by
  have notFirst : ¬ q.First u := fun mine => different (First.unique mine first)
  cases place with
  | apart => exact outside here
  | preparing => exact outside here
  | waiting node prevNode =>
      rcases here with ⟨i, waits, later, prev, own⟩
      have further : i ≠ q.queue.releases := by
        rintro rfl
        exact notFirst waits.hasTicket
      rcases waiting i waits later further with ⟨waits', later'⟩
      exact ⟨i, waits', later', by rw [nodes, prev], by rw [nodes, own]⟩
  | granted => exact absurd here.1.hasTicket notFirst
  | entered => exact absurd here.1.hasTicket notFirst
  | holding => exact absurd here.1.hasTicket notFirst
  | releasing => exact absurd here.1.hasTicket notFirst

theorem At.free (here : q.At u place) (first : q.First t) (different : u ≠ t)
    (freed : q.freed = q.queue.releases) : q.free.At u place := by
  refine here.behind first different rfl id fun i waits _ further => ⟨waits, ?_⟩
  have := waits.2.1
  show q.freed + 1 ≤ i
  omega

theorem At.acquire (here : q.At u place) (first : q.First t) (different : u ≠ t)
    (free : q.queue.grants = q.queue.releases) (node : Addr) : (q.acquire node).At u place :=
  here.behind first different rfl id fun _ waits later _ =>
    ⟨waits.acquire (free ▸ first.1) different, later⟩

theorem At.release (here : q.At u place) (holding : q.queue.Holding t) (different : u ≠ t) :
    q.release.At u place :=
  here.behind holding.hasTicket different rfl FifoState.Outside.release fun _ waits later _ =>
    ⟨waits.release holding different, later⟩

end others

end GhostQueue

structure Ghost (Tid Addr : Type) where
  q : GhostQueue Tid Addr
  role : Addr -> Option (Role Tid)

namespace Ghost

variable [DecidableEq Addr]

def setRole (g : Ghost Tid Addr) (p : Addr) (role : Option (Role Tid)) : Ghost Tid Addr :=
  { g with role := Function.update g.role p role }

@[simp] theorem setRole_q (g : Ghost Tid Addr) (p : Addr) (role : Option (Role Tid)) :
    (g.setRole p role).q = g.q := rfl
@[simp] theorem setRole_self (g : Ghost Tid Addr) (p : Addr) (role : Option (Role Tid)) :
    (g.setRole p role).role p = role := by
  simp [setRole]
@[simp] theorem setRole_of_ne (g : Ghost Tid Addr) {p p' : Addr} (different : p' ≠ p)
    (role : Option (Role Tid)) : (g.setRole p role).role p' = g.role p' := by
  simp [setRole, different]

end Ghost

/-- A thread answers for the node it is preparing and for no other. -/
def Owns (role : Addr -> Option (Role Tid)) (t : Tid) (place : Stage Addr) : Prop :=
  forall p initialised, role p = some (.own t initialised) <-> place = .preparing p initialised

/-- How the ghost state explains the lock and its memory. -/
structure Glob (g : Ghost Tid Addr) (lock : ClhLock Addr) : Prop where
  wellFormed : g.q.queue.WellFormed
  releases_le_freed : g.q.queue.releases ≤ g.q.freed
  freed_le_length : g.q.freed ≤ g.q.queue.arrivals.length
  tail : lock.tail = g.q.node g.q.queue.arrivals.length
  head : lock.head = g.q.head
  live : forall p, lock.heap.live p = (g.role p).isSome
  queued : forall p i, g.role p = some (.queued i) <->
    g.q.node i = p ∧ g.q.freed ≤ i ∧ i ≤ g.q.queue.arrivals.length
  queued_word : forall p i, g.role p = some (.queued i) ->
    (lock.heap.word p = ClhNode.locked <-> i ≠ g.q.queue.releases)
  own_word : forall p t, g.role p = some (.own t true) -> lock.heap.word p = ClhNode.locked
  faults : lock.heap.faults = []

theorem Owns.setRole [DecidableEq Addr] {g : Ghost Tid Addr} {u : Tid} {place : Stage Addr}
    (owns : Owns g.role u place) {p : Addr} {new : Option (Role Tid)}
    (before : forall initialised, g.role p ≠ some (.own u initialised))
    (after : forall initialised, new ≠ some (.own u initialised)) :
    Owns (g.setRole p new).role u place := by
  intro p' initialised
  by_cases same : p' = p
  · subst same
    rw [Ghost.setRole_self, ← owns p' initialised]
    exact iff_of_false (after initialised) (before initialised)
  · rw [Ghost.setRole_of_ne g same]
    exact owns p' initialised

namespace Glob

variable {g : Ghost Tid Addr} {lock : ClhLock Addr}

theorem role_eq_none (global : Glob g lock) {p : Addr} (fresh : lock.heap.live p = false) :
    g.role p = none := by
  rw [global.live p] at fresh
  exact Option.not_isSome_iff_eq_none.mp (by simp [fresh])

theorem live_of_role (global : Glob g lock) {p : Addr} {role : Role Tid}
    (has : g.role p = some role) : lock.heap.live p = true := by
  rw [global.live p, has]
  rfl

/-- The node that a ticket waits on is in the queue until it is freed. -/
theorem role_node (global : Glob g lock) {i : Nat} (later : g.q.freed ≤ i)
    (inside : i ≤ g.q.queue.arrivals.length) : g.role (g.q.node i) = some (.queued i) :=
  (global.queued _ i).mpr ⟨rfl, later, inside⟩

variable [DecidableEq Addr]

theorem allocates (global : Glob g lock) (t : Tid) {p : Addr} (fresh : lock.heap.live p = false) :
    Glob (g.setRole p (some (.own t false)))
      { lock with heap := lock.heap.malloc p fresh } where
  wellFormed := global.wellFormed
  releases_le_freed := global.releases_le_freed
  freed_le_length := global.freed_le_length
  tail := global.tail
  head := global.head
  live := by
    intro p'
    by_cases same : p' = p
    · simp [same]
    · simpa [same] using global.live p'
  queued := by
    intro p' i
    by_cases same : p' = p
    · subst same
      rw [Ghost.setRole_self]
      refine iff_of_false (by simp) fun atNode => ?_
      have := global.role_eq_none fresh ▸ (global.queued p' i).mpr atNode
      cases this
    · rw [Ghost.setRole_of_ne _ same]
      exact global.queued p' i
  queued_word := by
    intro p' i has
    by_cases same : p' = p
    · simp [same] at has
    · rw [Ghost.setRole_of_ne _ same] at has
      exact global.queued_word p' i has
  own_word := by
    intro p' u has
    by_cases same : p' = p
    · simp [same] at has
    · rw [Ghost.setRole_of_ne _ same] at has
      exact global.own_word p' u has
  faults := global.faults

theorem initialises (global : Glob g lock) {t : Tid} {node : Addr}
    (owned : g.role node = some (.own t false)) :
    Glob (g.setRole node (some (.own t true)))
      { lock with heap := lock.heap.store node ClhNode.locked } where
  wellFormed := global.wellFormed
  releases_le_freed := global.releases_le_freed
  freed_le_length := global.freed_le_length
  tail := global.tail
  head := global.head
  live := by
    intro p
    by_cases same : p = node
    · simpa [same] using global.live_of_role owned
    · simpa [same] using global.live p
  queued := by
    intro p i
    by_cases same : p = node
    · subst same
      rw [Ghost.setRole_self, Ghost.setRole_q, ← global.queued p i, owned]
      simp
    · rw [Ghost.setRole_of_ne _ same]
      exact global.queued p i
  queued_word := by
    intro p i has
    by_cases same : p = node
    · simp [same] at has
    · rw [Ghost.setRole_of_ne _ same] at has
      simpa [Function.update_of_ne same] using global.queued_word p i has
  own_word := by
    intro p u has
    by_cases same : p = node
    · simp [same]
    · rw [Ghost.setRole_of_ne _ same] at has
      simpa [Function.update_of_ne same] using global.own_word p u has
  faults := by
    rw [Heap.store_faults (global.live_of_role owned)]
    exact global.faults

theorem enqueues (global : Glob g lock) {t : Tid} {node : Addr}
    (outside : g.q.queue.Outside t) (owned : g.role node = some (.own t true)) :
    Glob ({ g with q := g.q.enqueue t node }.setRole node
        (some (.queued (g.q.queue.arrivals.length + 1))))
      { lock with tail := node } where
  wellFormed := global.wellFormed.arrive outside
  releases_le_freed := global.releases_le_freed
  freed_le_length := by
    simpa [GhostQueue.enqueue] using Nat.le_succ_of_le global.freed_le_length
  tail := by simp [GhostQueue.enqueue]
  head := global.head
  live := by
    intro p
    by_cases same : p = node
    · simpa [same] using global.live_of_role owned
    · simpa [same] using global.live p
  queued := by
    intro p i
    simp only [Ghost.setRole_q, GhostQueue.enqueue, FifoState.arrive_length]
    have notYet : forall j, ¬ (g.q.node j = node ∧ g.q.freed ≤ j ∧
        j ≤ g.q.queue.arrivals.length) := by
      intro j queued
      have := owned ▸ (global.queued node j).mpr queued
      cases this
    have freed_le := global.freed_le_length
    by_cases last : i = g.q.queue.arrivals.length + 1
    · subst last
      rw [Function.update_self]
      by_cases same : p = node
      · subst same
        rw [Ghost.setRole_self]
        exact iff_of_true rfl ⟨rfl, by omega, Nat.le_refl _⟩
      · rw [Ghost.setRole_of_ne _ same, global.queued]
        exact iff_of_false (by omega) fun atNode => same atNode.1.symm
    · rw [Function.update_of_ne last]
      have bounds : i ≤ g.q.queue.arrivals.length + 1 <-> i ≤ g.q.queue.arrivals.length := by
        omega
      rw [bounds]
      by_cases same : p = node
      · subst same
        rw [Ghost.setRole_self]
        refine iff_of_false ?_ (notYet i)
        simpa using Ne.symm last
      · rw [Ghost.setRole_of_ne _ same]
        exact global.queued p i
  queued_word := by
    intro p i has
    have releases_le := global.releases_le_freed.trans global.freed_le_length
    by_cases same : p = node
    · subst same
      simp only [Ghost.setRole_self, Option.some.injEq, Role.queued.injEq] at has
      subst has
      refine iff_of_true (global.own_word p t owned) ?_
      show _ ≠ g.q.queue.releases
      omega
    · rw [Ghost.setRole_of_ne _ same] at has
      exact global.queued_word p i has
  own_word := by
    intro p u has
    by_cases same : p = node
    · simp [same] at has
    · rw [Ghost.setRole_of_ne _ same] at has
      exact global.own_word p u has
  faults := global.faults

theorem frees (global : Glob g lock) {t : Tid} (first : g.q.First t)
    (freed : g.q.freed = g.q.queue.releases) :
    Glob ({ g with q := g.q.free }.setRole (g.q.node g.q.queue.releases) none)
      { lock with heap := lock.heap.free (g.q.node g.q.queue.releases) } := by
  have inside := first.lt_length
  have role := global.role_node (Nat.le_of_eq freed) inside.le
  have live := global.live_of_role role
  exact {
    wellFormed := global.wellFormed
    releases_le_freed := Nat.le_succ_of_le global.releases_le_freed
    freed_le_length := by
      show g.q.freed + 1 ≤ _
      exact freed ▸ inside
    tail := global.tail
    head := global.head
    live := by
      intro p
      rw [Heap.free_live live]
      by_cases same : p = g.q.node g.q.queue.releases
      · simp [same]
      · simpa [same] using global.live p
    queued := by
      intro p i
      show _ <-> _ ∧ g.q.freed + 1 ≤ i ∧ _
      by_cases same : p = g.q.node g.q.queue.releases
      · subst same
        rw [Ghost.setRole_self]
        refine iff_of_false (by simp) ?_
        rintro ⟨node_i, later, bounded⟩
        have := (global.queued _ i).mpr ⟨node_i, by omega, bounded⟩
        rw [role, Option.some.injEq, Role.queued.injEq] at this
        omega
      · rw [Ghost.setRole_of_ne _ same, global.queued p i]
        refine and_congr_right fun node_i => and_congr_left fun _ => ?_
        have : i ≠ g.q.queue.releases := by
          rintro rfl
          exact same node_i.symm
        omega
    queued_word := by
      intro p i has
      by_cases same : p = g.q.node g.q.queue.releases
      · simp [same] at has
      · rw [Ghost.setRole_of_ne _ same] at has
        simpa [GhostQueue.free] using global.queued_word p i has
    own_word := by
      intro p u has
      by_cases same : p = g.q.node g.q.queue.releases
      · simp [same] at has
      · rw [Ghost.setRole_of_ne _ same] at has
        simpa using global.own_word p u has
    faults := by
      rw [Heap.free_faults live]
      exact global.faults }

omit [DecidableEq Addr] in
theorem acquires (global : Glob g lock) {t : Tid} (first : g.q.First t)
    (free : g.q.queue.grants = g.q.queue.releases) (node : Addr) :
    Glob { g with q := g.q.acquire node } { lock with head := some node } where
  wellFormed := global.wellFormed.acquire free (free ▸ first.1)
  releases_le_freed := global.releases_le_freed
  freed_le_length := global.freed_le_length
  tail := global.tail
  head := rfl
  live := global.live
  queued := global.queued
  queued_word := global.queued_word
  own_word := global.own_word
  faults := global.faults

theorem releases (global : Glob g lock) {t : Tid} (holding : g.q.queue.Holding t)
    (freed : g.q.freed = g.q.queue.releases + 1) :
    Glob { g with q := g.q.release }
      { lock with
        heap := lock.heap.store (g.q.node (g.q.queue.releases + 1)) ClhNode.unlocked } := by
  have inside := holding.hasTicket.lt_length
  have role := global.role_node (Nat.le_of_eq freed) inside
  exact {
    wellFormed := global.wellFormed.release holding
    releases_le_freed := Nat.le_of_eq freed.symm
    freed_le_length := global.freed_le_length
    tail := global.tail
    head := global.head
    live := by simpa using global.live
    queued := global.queued
    queued_word := by
      intro p i has
      show _ <-> i ≠ g.q.queue.releases + 1
      have atNode := (global.queued p i).mp has
      by_cases same : p = g.q.node (g.q.queue.releases + 1)
      · subst same
        rw [role, Option.some.injEq, Role.queued.injEq] at has
        subst has
        simp [ClhNode.unlocked, ClhNode.locked]
      · -- A node further back was locked and stays so.
        have further : i ≠ g.q.queue.releases + 1 := by
          rintro rfl
          exact same atNode.1.symm
        refine iff_of_true ?_ further
        simp only [Heap.store_word, Function.update_of_ne same]
        exact (global.queued_word p i has).mpr (by omega)
    own_word := by
      intro p u has
      by_cases same : p = g.q.node (g.q.queue.releases + 1)
      · rw [same, role] at has
        cases has
      · simpa only [Heap.store_word, Function.update_of_ne same] using global.own_word p u has
    faults := by
      rw [Heap.store_faults (global.live_of_role role)]
      exact global.faults }

end Glob

end Clh

end UserLocks
end Autolock
