import Autolock.UserLocks.Aepfl

namespace Autolock
namespace UserLocks

open Concurrency

/-!
# Safety of the array-queue lock

Tickets up to `turn` have been released completely.  The flag of the slot of
`turn` is unlocked, and no other, except while the owner of that ticket is
between its two stores; then no flag is.  At most 128 tickets from `turn` on
are in use, so no two of them share a slot.

The head counter may be ahead of `turn`: its increment is the first of the
three steps of `unlock`.  When no `trylock` ever succeeds the lock cannot be
taken before these steps are finished.  A successful `trylock` does not look
at the flags, so several threads may then be inside `unlock` at once, and the
invariant needs to know that their stores happen in order.
-/

namespace Aepfl

variable {Tid : Type}

/-! ## Slots -/

theorem aepflSlot_eq_iff {a b : Nat} : aepflSlot a = aepflSlot b <-> a % 128 = b % 128 :=
  Fin.ext_iff

/-- Two tickets of the same window have different slots. -/
theorem aepflSlot_injective {turn k : Nat} (later : turn ≤ k) (inWindow : k < turn + 128)
    (same : aepflSlot k = aepflSlot turn) : k = turn := by
  rw [aepflSlot_eq_iff] at same
  omega

@[simp] theorem fetchAddSlot_wrap (n : Nat) : fetchAddSlot (wrap n) = aepflSlot n := by
  rw [fetchAddSlot, wrap_toNat, aepflSlot_eq_iff]
  omega

@[simp] theorem getNextSlot_aepflSlot (k : Nat) :
    getNextSlot (aepflSlot k) = aepflSlot (k + 1) := by
  rw [getNextSlot, aepflSlot_eq_iff]
  simp [aepflSlot, Fin.ofNat, aepflMaxThreads]

/-! ## What one step does -/

/-- Where a thread is, as far as the slots are concerned. -/
inductive Place where
  | apart
  | waiting (slot : AepflSlot)
  | granted
  | holding
  | unlocking (slot : AepflSlot)
  | passing (slot : AepflSlot)

def place : AepflPc -> Place
  | .outside | .tryLoadTail | .tryLoadHead _ | .tryCompareExchange _ | .fetchAddTail => .apart
  | .firstLoad slot | .setWatchMem slot | .setWatchFor slot | .setWatchNeq slot | .loadHead slot
  | .nearHead slot | .pausing slot _ | .yielding slot => .waiting slot
  | .disarm _ => .granted
  | .holding | .fetchAddHead => .holding
  | .storeLocked slot => .unlocking slot
  | .storeUnlocked slot => .passing slot

/-- The kinds of step, with what each does to the lock and to the place of its thread. -/
inductive StepEffect (lock : AepflLock) : AepflLock -> Place -> Place -> AepflEvent -> Prop
  | silent {event : AepflEvent} (there : Place)
      (quiet : event = .internal ∨ event = .trylockReturned iFailure) :
      StepEffect lock lock there there event
  | wins :
      StepEffect lock { lock with tail := lock.tail + 1 } .apart .holding
        (.trylockReturned iSuccess)
  | takes :
      StepEffect lock { lock with tail := lock.tail + 1 } .apart
        (.waiting (fetchAddSlot lock.tail)) .tookTicket
  | sees_turn {slot : AepflSlot} (free : lock.flags slot ≠ AepflFlag.locked) :
      StepEffect lock lock (.waiting slot) .granted .internal
  | enters {there : Place}
      (turn : there = .granted ∨
        exists slot, there = .waiting slot ∧ lock.flags slot ≠ AepflFlag.locked) :
      StepEffect lock lock there .holding (.lockReturned iSuccess)
  | takes_head :
      StepEffect lock { lock with head := lock.head + 1 } .holding
        (.unlocking (fetchAddSlot lock.head)) .tookHead
  | locks (slot : AepflSlot) :
      StepEffect lock { lock with flags := Function.update lock.flags slot AepflFlag.locked }
        (.unlocking slot) (.passing (getNextSlot slot)) .internal
  | unlocks (slot : AepflSlot) :
      StepEffect lock { lock with flags := Function.update lock.flags slot AepflFlag.unlocked }
        (.passing slot) .apart (.unlockReturned iSuccess)

theorem recheck_effect {autolock : Bool} {lock lock' : AepflLock} {l l' : AepflThread}
    {event : AepflEvent} {slot : AepflSlot} {whenLocked : AepflPc}
    (checked : recheck autolock lock l slot whenLocked = some (lock', l', event))
    (before : place l.pc = .waiting slot) (after : place whenLocked = .waiting slot) :
    StepEffect lock lock' (place l.pc) (place l'.pc) event := by
  unfold recheck at checked
  split at checked
  · next free =>
      cases autolock
      · cases checked
        exact .enters (Or.inr ⟨slot, before, free⟩)
      · cases checked
        rw [before]
        exact .sees_turn free
  · cases checked
    rw [before]
    dsimp only
    rw [after]
    exact .silent _ (Or.inl rfl)

theorem step_effect {autolock : Bool} {t : Tid} {action : AepflAction} {lock lock' : AepflLock}
    {l l' : AepflThread} {event : AepflEvent}
    (stepped : step autolock t action lock l = some (lock', l', event)) :
    StepEffect lock lock' (place l.pc) (place l'.pc) event := by
  rcases l with ⟨pc, page⟩
  cases pc <;> cases action <;> simp only [step, reduceCtorEq] at stepped
  case tryLoadHead.run curTail =>
    split at stepped <;> cases stepped
    · exact .silent _ (Or.inl rfl)
    · exact .silent _ (Or.inr rfl)
  case tryCompareExchange.run curTail =>
    split at stepped
    · next equal =>
        cases stepped
        rw [← equal]
        exact .wins
    · cases stepped
      exact .silent _ (Or.inr rfl)
  case tryCompareExchange.failSpuriously curTail =>
    cases stepped
    exact .silent _ (Or.inr rfl)
  case fetchAddTail.run =>
    cases stepped
    exact .takes
  case firstLoad.run slot =>
    split at stepped
    · cases stepped
      cases autolock <;> exact .silent _ (Or.inl rfl)
    · next free =>
        cases stepped
        exact .enters (Or.inr ⟨slot, rfl, free⟩)
  case loadHead.run slot =>
    split at stepped <;> cases stepped <;> exact .silent _ (Or.inl rfl)
  case nearHead.run slot => exact recheck_effect stepped rfl rfl
  case pausing.run slot tmpWaitIters =>
    refine recheck_effect stepped rfl ?_
    cases lockWaitNext tmpWaitIters <;> rfl
  case yielding.run slot => exact recheck_effect stepped rfl rfl
  case disarm.run =>
    cases stepped
    exact .enters (Or.inl rfl)
  case fetchAddHead.run =>
    cases stepped
    exact .takes_head
  case storeLocked.run slot =>
    cases stepped
    exact .locks slot
  case storeUnlocked.run slot =>
    cases stepped
    exact .unlocks slot
  all_goals cases stepped
  all_goals exact .silent _ (Or.inl rfl)

/-! ## Tickets as positions -/

/-- The queue of tickets; how many have been released completely; and whether
the owner of the next one is between its two stores. -/
structure Ghost (Tid : Type) where
  queue : FifoState Tid
  turn : Nat
  passing : Bool

namespace Ghost

/-- The tickets of the threads inside, those that are unlocking included. -/
def served (g : Ghost Tid) : FifoState Tid := ⟨g.queue.arrivals, g.turn, g.turn⟩

@[simp] theorem served_arrivals (g : Ghost Tid) : g.served.arrivals = g.queue.arrivals := rfl
@[simp] theorem served_releases (g : Ghost Tid) : g.served.releases = g.turn := rfl

/-- The place of a thread in terms of the tickets. -/
def At (g : Ghost Tid) (t : Tid) : Place -> Prop
  | .apart => g.served.Outside t
  | .waiting slot => exists k, g.queue.Waiting t k ∧ slot = aepflSlot k
  | .granted =>
      g.queue.Waiting t g.turn ∧ g.queue.releases = g.turn ∧ g.passing = false
  | .holding => g.queue.Holding t
  | .unlocking slot =>
      exists k, g.served.HasTicket t k ∧ k < g.queue.releases ∧ slot = aepflSlot k ∧
        (k = g.turn -> g.passing = false)
  | .passing slot =>
      g.served.HasTicket t g.turn ∧ g.turn < g.queue.releases ∧ slot = aepflSlot (g.turn + 1) ∧
        g.passing = true

/-- A thread that is not inside has no ticket. -/
theorem At.inside {g : Ghost Tid} {t : Tid} {pc : AepflPc} (here : g.At t (place pc))
    (ticket : ¬ g.served.Outside t) :
    pc.queued = true ∨ pc.holdsLock = true ∨ pc.inUnlock = true := by
  cases pc
  case outside => exact absurd here ticket
  case tryLoadTail => exact absurd here ticket
  case tryLoadHead => exact absurd here ticket
  case tryCompareExchange => exact absurd here ticket
  case fetchAddTail => exact absurd here ticket
  all_goals first | exact Or.inl rfl | exact Or.inr (Or.inl rfl) | exact Or.inr (Or.inr rfl)

def arrive (g : Ghost Tid) (t : Tid) : Ghost Tid := { g with queue := g.queue.arrive t }

def acquire (g : Ghost Tid) : Ghost Tid := { g with queue := g.queue.acquire }

/-- The increment of `head`. -/
def takeHead (g : Ghost Tid) : Ghost Tid := { g with queue := g.queue.release }

/-- The first store of `unlock`. -/
def lockFlag (g : Ghost Tid) : Ghost Tid := { g with passing := true }

/-- The second store of `unlock`. -/
def unlockNext (g : Ghost Tid) : Ghost Tid := { g with turn := g.turn + 1, passing := false }

section others

variable {g : Ghost Tid} {t u : Tid} {there : Place}

theorem At.arrive (here : g.At u there) (different : u ≠ t) : (g.arrive t).At u there := by
  cases there with
  | apart => exact FifoState.Outside.arrive here different
  | waiting =>
      rcases here with ⟨k, waits, slot⟩
      exact ⟨k, waits.arrive t, slot⟩
  | granted => exact ⟨here.1.arrive t, here.2⟩
  | holding => exact FifoState.Holding.arrive here t
  | unlocking =>
      rcases here with ⟨k, ticket, rest⟩
      exact ⟨k, ticket.arrive t, rest⟩
  | passing => exact ⟨here.1.arrive t, here.2⟩

theorem At.acquire (here : g.At u there) (free : g.queue.grants = g.queue.releases)
    (first : g.queue.arrivals[g.queue.grants]? = some t) (different : u ≠ t) :
    g.acquire.At u there := by
  cases there with
  | apart => exact here
  | waiting =>
      rcases here with ⟨k, waits, slot⟩
      exact ⟨k, waits.acquire first different, slot⟩
  | granted =>
      have atTurn := here.1.1
      rw [← here.2.1, ← free] at atTurn
      exact absurd (Option.some.inj (atTurn.symm.trans first)) different
  | holding =>
      have := here.1
      omega
  | unlocking => exact here
  | passing => exact here

theorem At.takeHead (here : g.At u there) (holds : g.queue.Holding t) (different : u ≠ t) :
    g.takeHead.At u there := by
  cases there with
  | apart => exact here
  | waiting =>
      rcases here with ⟨k, waits, slot⟩
      exact ⟨k, waits.release holds different, slot⟩
  | granted =>
      have atTurn := here.1.1
      rw [← here.2.1] at atTurn
      exact absurd (Option.some.inj (atTurn.symm.trans holds.2)) different
  | holding => exact absurd (FifoState.Holding.unique here holds) different
  | unlocking =>
      rcases here with ⟨k, ticket, released, rest⟩
      exact ⟨k, ticket, Nat.lt_succ_of_lt released, rest⟩
  | passing => exact ⟨here.1, Nat.lt_succ_of_lt here.2.1, here.2.2⟩

/-- The owner of the ticket `turn` stores; nobody else can be at that ticket. -/
theorem At.lockFlag (here : g.At u there) (mine : g.served.HasTicket t g.turn)
    (released : g.turn < g.queue.releases) (different : u ≠ t) : g.lockFlag.At u there := by
  have notMine : forall {k}, g.served.HasTicket u k -> k ≠ g.turn := by
    rintro k ticket rfl
    exact different (Option.some.inj (ticket.1.symm.trans mine.1))
  cases there with
  | apart => exact here
  | waiting => exact here
  | granted =>
      have := here.2.1
      omega
  | holding => exact here
  | unlocking =>
      rcases here with ⟨k, ticket, earlier, slot, _⟩
      exact ⟨k, ticket, earlier, slot, fun isTurn => absurd isTurn (notMine ticket)⟩
  | passing => exact absurd rfl (notMine here.1)

theorem At.unlockNext (here : g.At u there) (mine : g.served.HasTicket t g.turn)
    (released : g.turn < g.queue.releases) (different : u ≠ t) : g.unlockNext.At u there := by
  have notMine : forall {k}, g.served.HasTicket u k -> k ≠ g.turn := by
    rintro k ticket rfl
    exact different (Option.some.inj (ticket.1.symm.trans mine.1))
  cases there with
  | apart => exact fun k later => here k (Nat.le_of_succ_le later)
  | waiting => exact here
  | granted =>
      have := here.2.1
      omega
  | holding => exact here
  | unlocking =>
      rcases here with ⟨k, ticket, earlier, slot, _⟩
      have later := lt_of_le_of_ne ticket.2 (Ne.symm (notMine ticket))
      exact ⟨k, ⟨ticket.1, later⟩, earlier, slot, fun _ => rfl⟩
  | passing => exact absurd rfl (notMine here.1)

end others

end Ghost

/-! ## One step of one thread in the ghost state -/

/-- How the ghost state explains the counters and the flags. -/
structure Explained (g : Ghost Tid) (lock : AepflLock) : Prop where
  wellFormed : g.queue.WellFormed
  served_wellFormed : g.served.WellFormed
  turn_le : g.turn ≤ g.queue.releases
  passing_lt : g.passing = true -> g.turn < g.queue.releases
  tail : lock.tail = wrap g.queue.arrivals.length
  head : lock.head = wrap g.queue.releases
  flags : forall slot, lock.flags slot =
    if slot = aepflSlot g.turn ∧ g.passing = false then AepflFlag.unlocked else AepflFlag.locked

/-- The slots of the tickets in use are different. -/
def Ghost.Window (g : Ghost Tid) : Prop :=
  g.queue.arrivals.length ≤ g.turn + aepflMaxThreads

section explained

variable {g : Ghost Tid} {lock : AepflLock} {t : Tid}

theorem Explained.free_iff (explained : Explained g lock) {slot : AepflSlot} :
    lock.flags slot ≠ AepflFlag.locked <-> slot = aepflSlot g.turn ∧ g.passing = false := by
  rw [explained.flags slot]
  split
  · next here => exact iff_of_true (by decide) here
  · next elsewhere => exact iff_of_false (fun same => same rfl) elsewhere

theorem Explained.at_turn (explained : Explained g lock) (window : g.Window) {k : Nat}
    (later : g.turn ≤ k) (taken : k < g.queue.arrivals.length)
    (free : lock.flags (aepflSlot k) ≠ AepflFlag.locked) : k = g.turn ∧ g.passing = false := by
  rcases explained.free_iff.mp free with ⟨same, notPassing⟩
  exact ⟨aepflSlot_injective later (taken.trans_le window) same, notPassing⟩

/-- A waiter that finds its flag unlocked has the first ticket, and nobody is unlocking. -/
theorem Explained.first (explained : Explained g lock) (window : g.Window) {slot : AepflSlot}
    (here : g.At t (.waiting slot)) (free : lock.flags slot ≠ AepflFlag.locked) :
    g.At t .granted := by
  rcases here with ⟨k, waits, rfl⟩
  have later := explained.turn_le.trans waits.2.1
  rcases explained.at_turn window later waits.hasTicket.lt_length free with ⟨rfl, notPassing⟩
  exact ⟨waits, le_antisymm waits.2.1 explained.turn_le, notPassing⟩

theorem Explained.grant (explained : Explained g lock) (here : g.At t .granted) :
    exists g' : Ghost Tid,
      (fifoLock Tid).Steps g.queue [.acquire t] g'.queue ∧ Explained g' lock ∧
        g'.At t .holding ∧ (forall u, u ≠ t -> forall there, g.At u there -> g'.At u there) ∧
        g'.queue.grants ≤ g'.turn + 1 := by
  rcases here with ⟨waits, isTurn, _⟩
  have free : g.queue.grants = g.queue.releases := by
    have := waits.2.2
    have := explained.wellFormed.releases_le_grants
    omega
  have first : g.queue.arrivals[g.queue.grants]? = some t := by
    rw [free, isTurn]
    exact waits.1
  refine ⟨g.acquire, .single ⟨free, first, rfl⟩, ?_, FifoState.holding_acquire_self free first,
    fun u different there other => other.acquire free first different, ?_⟩
  · exact ⟨explained.wellFormed.acquire free first, explained.served_wellFormed,
      explained.turn_le, explained.passing_lt, explained.tail, explained.head, explained.flags⟩
  · show g.queue.grants + 1 ≤ g.turn + 1
    omega

theorem Explained.arrive (explained : Explained g lock) (outside : g.served.Outside t) :
    Explained (g.arrive t) { lock with tail := lock.tail + 1 } := by
  have notQueued : g.queue.Outside t := fun k later => outside k (explained.turn_le.trans later)
  refine ⟨explained.wellFormed.arrive notQueued, explained.served_wellFormed.arrive outside,
    explained.turn_le, explained.passing_lt, ?_, explained.head, explained.flags⟩
  simp [explained.tail, Ghost.arrive]

/-- With `head` equal to `tail` no ticket is waiting or held. -/
theorem Explained.empty (explained : Explained g lock) (window : g.Window)
    (equal : lock.head = lock.tail) :
    g.queue.releases = g.queue.arrivals.length ∧ g.queue.grants = g.queue.releases := by
  rw [explained.head, explained.tail] at equal
  have releases_le := explained.wellFormed.releases_le_grants
  have grants_le := explained.wellFormed.grants_le_length
  have turn_le := explained.turn_le
  simp only [Ghost.Window, aepflMaxThreads] at window
  have same := wrap_injective (by omega) (by omega) equal
  omega

/-- The store of a locked flag is the turn of its thread, either because the
flag is still unlocked or because no second `unlock` can be under way. -/
theorem Explained.locks_at_turn (explained : Explained g lock) (window : g.Window)
    {slot : AepflSlot} (here : g.At t (.unlocking slot))
    (inOrder : lock.flags slot = AepflFlag.unlocked ∨ g.queue.grants ≤ g.turn + 1) :
    g.served.HasTicket t g.turn ∧ g.turn < g.queue.releases ∧ slot = aepflSlot g.turn ∧
      g.passing = false := by
  rcases here with ⟨k, ticket, released, rfl, notPassing⟩
  rcases inOrder with free | few
  · have free' : lock.flags (aepflSlot k) ≠ AepflFlag.locked := by
      rw [free]
      decide
    rcases explained.at_turn window ticket.2 ticket.lt_length free' with ⟨rfl, notPassing'⟩
    exact ⟨ticket, released, rfl, notPassing'⟩
  · have later : g.turn ≤ k := ticket.2
    have isTurn : k = g.turn := by
      have := explained.wellFormed.releases_le_grants
      omega
    subst isTurn
    exact ⟨ticket, released, rfl, notPassing rfl⟩

/-- Every kind of step has a ghost step that the specification allows, that
keeps the explanation of the lock, and that leaves the other threads alone. -/
theorem ghost_step {lock' : AepflLock} {there there' : Place} {event : AepflEvent}
    (explained : Explained g lock) (window : g.Window) (here : g.At t there)
    (effect : StepEffect lock lock' there there' event)
    (freeWhenTried : event = .trylockReturned iSuccess -> lock.head = lock.tail)
    (inOrder : forall slot, there = .unlocking slot ->
      lock.flags slot = AepflFlag.unlocked ∨ g.queue.grants ≤ g.turn + 1) :
    exists g' : Ghost Tid,
      (fifoLock Tid).Steps g.queue (observe (t, event)) g'.queue ∧ Explained g' lock' ∧
        g'.At t there' ∧ (forall u, u ≠ t -> forall there, g.At u there -> g'.At u there) ∧
        (event ≠ .trylockReturned iSuccess -> g.queue.grants ≤ g.turn + 1 ->
          g'.queue.grants ≤ g'.turn + 1) := by
  have wellFormed := explained.wellFormed
  cases effect with
  | silent there quiet =>
      refine ⟨g, ?_, explained, here, fun _ _ _ other => other, fun _ few => few⟩
      rcases quiet with rfl | rfl
      · exact .refl _
      · exact .refl _
  | wins =>
      rcases explained.empty window (freeWhenTried rfl) with ⟨released, free⟩
      have notQueued : g.queue.Outside t := fun k later => here k (explained.turn_le.trans later)
      have first : (g.arrive t).queue.arrivals[(g.arrive t).queue.grants]? = some t := by
        simp [Ghost.arrive, FifoState.arrive, free, released]
      have arrived := explained.arrive here
      refine ⟨(g.arrive t).acquire, .cons ⟨notQueued, rfl⟩ (.single ⟨free, first, rfl⟩), ?_,
        FifoState.holding_acquire_self free first, fun u different there other =>
        (other.arrive different).acquire free first different, fun fails _ => absurd rfl fails⟩
      exact ⟨arrived.wellFormed.acquire free first, arrived.served_wellFormed, arrived.turn_le,
        arrived.passing_lt, arrived.tail, arrived.head, arrived.flags⟩
  | takes =>
      have notQueued : g.queue.Outside t := fun k later => here k (explained.turn_le.trans later)
      refine ⟨g.arrive t, .single ⟨notQueued, rfl⟩, explained.arrive here,
        ⟨_, FifoState.waiting_arrive_self wellFormed t, ?_⟩,
        fun u different there other => other.arrive different, fun _ few => few⟩
      rw [explained.tail, fetchAddSlot_wrap]
  | sees_turn free =>
      exact ⟨g, .refl _, explained, explained.first window here free, fun _ _ _ other => other,
        fun _ few => few⟩
  | enters turn =>
      have granted : g.At t .granted := by
        rcases turn with rfl | ⟨slot, rfl, free⟩
        · exact here
        · exact explained.first window here free
      rcases explained.grant granted with ⟨g', steps, explained', own, others, few⟩
      exact ⟨g', steps, explained', own, others, fun _ _ => few⟩
  | takes_head =>
      have holds : g.queue.Holding t := here
      refine ⟨g.takeHead, .single ⟨holds, rfl⟩, ?_,
        ⟨g.queue.releases, ?_, Nat.lt_succ_self _, ?_, ?_⟩,
        fun u different there other => other.takeHead holds different, fun _ few => few⟩
      · refine ⟨wellFormed.release holds, explained.served_wellFormed,
          Nat.le_succ_of_le explained.turn_le,
          fun passing => Nat.lt_succ_of_lt (explained.passing_lt passing), explained.tail, ?_,
          explained.flags⟩
        simp [explained.head, Ghost.takeHead]
      · exact ⟨holds.2, explained.turn_le⟩
      · rw [explained.head, fetchAddSlot_wrap]
      · intro isTurn
        apply Bool.eq_false_iff.mpr
        intro passing
        have := explained.passing_lt passing
        simp only [Ghost.takeHead] at isTurn
        omega
  | locks slot =>
      rcases explained.locks_at_turn window here (inOrder slot rfl) with
        ⟨ticket, released, rfl, notPassing⟩
      refine ⟨g.lockFlag, .refl _, ?_, ⟨ticket, released, ?_, rfl⟩,
        fun u different there other => other.lockFlag ticket released different,
        fun _ few => few⟩
      · refine ⟨wellFormed, explained.served_wellFormed, explained.turn_le, fun _ => released,
          explained.tail, explained.head, fun slot => ?_⟩
        by_cases same : slot = aepflSlot g.turn
        · simp [same, Ghost.lockFlag]
        · simp [same, Ghost.lockFlag, explained.flags slot]
      · exact getNextSlot_aepflSlot g.turn
  | unlocks slot =>
      rcases here with ⟨ticket, released, rfl, passing⟩
      have served := explained.served_wellFormed.acquire rfl ticket.1
      have holds : g.served.acquire.Holding t := ⟨rfl, ticket.1⟩
      refine ⟨g.unlockNext, .refl _, ?_, FifoState.outside_release_self served holds,
        fun u different there other => other.unlockNext ticket released different, fun _ few => ?_⟩
      · refine ⟨wellFormed, served.release holds, released,
          fun again => absurd again Bool.false_ne_true, explained.tail, explained.head,
          fun slot => ?_⟩
        by_cases same : slot = aepflSlot (g.turn + 1)
        · simp [same, Ghost.unlockNext]
        · simp [same, Ghost.unlockNext, explained.flags slot, passing]
      · exact Nat.le_succ_of_le few

end explained

/-! ## The invariant of every run -/

/-- No `trylock` has succeeded so far. -/
def noTrylockSucceeded (trace : List (Tid × AepflEvent)) : Prop :=
  forall label, label ∈ trace -> label.2 ≠ .trylockReturned iSuccess

/-- A `trylock` succeeds only while `head` equals `tail`. -/
def freeWhenTried (s : Machine Tid AepflLock AepflThread) (label : Tid × AepflEvent) : Prop :=
  label.2 = .trylockReturned iSuccess -> s.shared.head = s.shared.tail

/-- `unlock` locks the flag of its slot only after that flag has been unlocked. -/
def storesInOrder (s : Machine Tid AepflLock AepflThread) (label : Tid × AepflEvent) : Prop :=
  forall slot, (s.thread label.1).pc = .storeLocked slot ->
    s.shared.flags slot = AepflFlag.unlocked

/-- The condition on a step under which the invariant is kept. -/
def orderly : TransitionSystem.Guard (Machine Tid AepflLock AepflThread) (Tid × AepflEvent) :=
  fun trace s label s' =>
    fits s' ∧ freeWhenTried s label ∧ (storesInOrder s label ∨ noTrylockSucceeded trace)

theorem storeLocked_of_place {pc : AepflPc} {slot : AepflSlot} (here : place pc = .unlocking slot) :
    pc = .storeLocked slot := by
  cases pc <;> cases here
  rfl

/-- Every orderly interleaving refines the first come, first served specification. -/
def threadInvariant [DecidableEq Tid] (autolock : Bool) :
    ThreadInvariant (program Tid autolock) init orderly (fifoLock Tid) observe
      (fun g : Ghost Tid => g.queue) where
  glob := fun trace g lock =>
    Explained g lock ∧ g.Window ∧ (noTrylockSucceeded trace -> g.queue.grants ≤ g.turn + 1)
  loc := fun g t l => g.At t (place l.pc)
  start := by
    intro s initial
    rcases initial with ⟨shared, threads⟩
    refine ⟨⟨⟨[], 0, 0⟩, 0, false⟩, rfl, ⟨?_, Nat.zero_le _, fun _ => Nat.zero_le _⟩, fun t => ?_⟩
    · rw [shared]
      refine ⟨FifoState.wellFormed_nil, FifoState.wellFormed_nil, Nat.le_refl 0,
        (fun passing => nomatch passing), rfl, rfl, fun slot => ?_⟩
      by_cases first : slot = aepflSlot 0
      · simp [lockInit, first, aepflSlot]
      · have notZero : slot ≠ 0 := first
        simp [lockInit, first, notZero]
    · rw [(threads t).1]
      intro k _
      simp
  step := by
    intro trace g s t action lock' l' event global locals stepped allowed
    rcases global with ⟨explained, window, few⟩
    rcases allowed with ⟨roomy, free, inOrder⟩
    have effect := step_effect (show Aepfl.step autolock t _ _ _ = _ from stepped)
    have inOrder' : forall slot, place (s.thread t).pc = .unlocking slot ->
        s.shared.flags slot = AepflFlag.unlocked ∨ g.queue.grants ≤ g.turn + 1 := by
      intro slot here
      rcases inOrder with ordered | none
      · exact Or.inl (ordered slot (storeLocked_of_place here))
      · exact Or.inr (few none)
    rcases ghost_step explained window (locals t) effect free inOrder' with
      ⟨g', steps, explained', own, others, few'⟩
    refine ⟨g', steps, ⟨explained', ?_, ?_⟩, own,
      fun u different other => others u different _ other⟩
    · have covers : forall u, ¬ g'.served.Outside u ->
          u ∈ inside ⟨lock', Function.update s.thread t l'⟩ := by
        intro u ticket
        by_cases same : u = t
        · subst same
          simpa [inside] using own.inside ticket
        · simpa [inside, same] using (others u same _ (locals u)).inside ticket
      have counted := (explained'.served_wellFormed.tickets_le covers).trans roomy
      rw [Nat.cast_le] at counted
      simp only [Ghost.served_arrivals, Ghost.served_releases] at counted
      simp only [Ghost.Window]
      omega
    · intro none
      apply few' (none (t, event) (List.mem_append_right _ List.mem_cons_self))
      exact few fun label member => none label (List.mem_append_left _ member)

end Aepfl

end UserLocks
end Autolock
