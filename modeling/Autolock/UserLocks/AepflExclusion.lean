import Autolock.UserLocks.AepflSafety

namespace Autolock
namespace UserLocks

open Concurrency

/-!
# What the array-queue lock guarantees, with and without `trylock`

Without a successful `trylock` the lock is safe in every run in which at most
128 threads are inside.  With `trylock` it is safe as long as `trylock`
succeeds only while the lock is free and no `unlock` overtakes another; the
code checks neither.
-/

namespace Aepfl

variable {Tid : Type}

theorem tickets_eq (trace : List (Tid × AepflEvent)) :
    (trace.flatMap observe).filterMap LockMove.arrival? = tickets trace := by
  apply filterMap_observe
  rintro ⟨t, event⟩
  cases event with
  | trylockReturned ret =>
      by_cases success : ret = iSuccess
      · subst success
        rfl
      · simp [takesTicket, observe, success]
  | _ => rfl

theorem acquisitions_eq (trace : List (Tid × AepflEvent)) :
    (trace.flatMap observe).filterMap LockMove.acquisition? = acquisitions trace := by
  apply filterMap_observe
  rintro ⟨t, event⟩
  cases event with
  | trylockReturned ret =>
      by_cases success : ret = iSuccess
      · subst success
        rfl
      · simp [grantsLock, observe, success]
  | _ => rfl

theorem Ghost.At.of_holdsLock {g : Ghost Tid} {t : Tid} {pc : AepflPc} (here : g.At t (place pc))
    (holds : pc.holdsLock = true) : g.queue.Holding t := by
  cases pc <;> cases holds
  · exact here
  · exact here

/-- A thread inside `unlock` has a ticket whose head position it has taken back. -/
theorem Ghost.At.of_inUnlock {g : Ghost Tid} {t : Tid} {pc : AepflPc} (here : g.At t (place pc))
    (unlocks : pc.inUnlock = true) : exists k, g.served.HasTicket t k ∧ k < g.queue.releases := by
  cases pc <;> cases unlocks
  · rcases here with ⟨k, ticket, released, _⟩
    exact ⟨k, ticket, released⟩
  · exact ⟨g.turn, here.1, here.2.1⟩

/-- At most one flag is unlocked. -/
theorem Explained.flag_unique {g : Ghost Tid} {lock : AepflLock} (explained : Explained g lock)
    {i j : AepflSlot} (first : lock.flags i = AepflFlag.unlocked)
    (second : lock.flags j = AepflFlag.unlocked) : i = j := by
  have unlocked : forall {slot}, lock.flags slot = AepflFlag.unlocked ->
      slot = aepflSlot g.turn := by
    intro slot isUnlocked
    refine (explained.free_iff.mp ?_).1
    rw [isUnlocked]
    decide
  rw [unlocked first, unlocked second]

/-! ## Without `trylock` -/

/-- At most 128 threads are inside, and no `trylock` succeeds. -/
def withoutTrylock : TransitionSystem.Guard (Machine Tid AepflLock AepflThread)
    (Tid × AepflEvent) :=
  fun _ _ label s' => fits s' ∧ label.2 ≠ .trylockReturned iSuccess

theorem run_orderly [DecidableEq Tid] {autolock : Bool} {trace : List (Tid × AepflEvent)}
    {s : Machine Tid AepflLock AepflThread}
    (run : (system autolock).Run withoutTrylock trace s) :
    (system autolock).Run orderly trace s ∧ noTrylockSucceeded trace := by
  induction run with
  | start initial => exact ⟨.start initial, fun label member => by cases member⟩
  | step _ moved allowed inductionHypothesis =>
      rcases inductionHypothesis with ⟨run, none⟩
      refine ⟨run.step moved ⟨allowed.1, fun success => absurd success allowed.2, Or.inr none⟩, ?_⟩
      intro label member
      rcases List.mem_append.mp member with earlier | last
      · exact none label earlier
      · rw [List.mem_singleton.mp last]
        exact allowed.2

/-- Whoever holds the lock or is still unlocking has the ticket whose turn it is. -/
theorem Explained.at_turn_of_inside {g : Ghost Tid} {lock : AepflLock}
    (explained : Explained g lock) (few : g.queue.grants ≤ g.turn + 1) {t : Tid} {pc : AepflPc}
    (here : g.At t (place pc)) (inLock : pc.holdsLock = true ∨ pc.inUnlock = true) :
    g.queue.arrivals[g.turn]? = some t := by
  have turn_le := explained.turn_le
  rcases inLock with holds | unlocks
  · have holding := here.of_holdsLock holds
    have isTurn : g.queue.releases = g.turn := by
      have := holding.1
      omega
    exact isTurn ▸ holding.2
  · rcases here.of_inUnlock unlocks with ⟨k, ticket, released⟩
    have later : g.turn ≤ k := ticket.2
    have isTurn : k = g.turn := by
      have := explained.wellFormed.releases_le_grants
      omega
    exact isTurn ▸ ticket.1

/-- In every run without a successful `trylock` at most one flag is unlocked,
at most one thread is between the return of `lock` and the last store of its
`unlock`, and the threads acquire in the order of their tickets. -/
theorem lock_exclusive_and_fifo [DecidableEq Tid] (autolock : Bool)
    (trace : List (Tid × AepflEvent)) (s : Machine Tid AepflLock AepflThread)
    (run : (system autolock).Run withoutTrylock trace s) :
    (forall i j, s.shared.flags i = AepflFlag.unlocked -> s.shared.flags j = AepflFlag.unlocked ->
        i = j) ∧
      (forall t u, (s.thread t).pc.holdsLock = true ∨ (s.thread t).pc.inUnlock = true ->
        (s.thread u).pc.holdsLock = true ∨ (s.thread u).pc.inUnlock = true -> t = u) ∧
      acquisitions trace <+: tickets trace := by
  rcases run_orderly run with ⟨orderlyRun, none⟩
  rcases (threadInvariant autolock).run orderlyRun with ⟨g, specRun, ⟨explained, _, few⟩, locals⟩
  refine ⟨fun i j => explained.flag_unique, ?_, ?_⟩
  · intro t u first second
    have atFirst := explained.at_turn_of_inside (few none) (locals t) first
    have atSecond := explained.at_turn_of_inside (few none) (locals u) second
    exact Option.some.inj (atFirst.symm.trans atSecond)
  · rw [← acquisitions_eq, ← tickets_eq]
    exact (FifoState.explains specRun).acquisitions_ordered

/-- One thread locks while the other waits with its page armed, and hands over. -/
def handover : List (Bool × AepflAction) :=
  [(false, .callLock), (false, .run), (false, .run), (true, .callLock), (true, .run), (true, .run),
    (true, .run), (true, .run), (true, .run), (true, .run), (true, .run), (false, .callUnlock),
    (false, .run), (false, .run), (false, .run), (true, .run), (true, .run)]

theorem lock_exclusive_and_fifo_handover :
    let result := (program Bool true).play handover (fresh Bool)
    (forall i j, result.1.shared.flags i = AepflFlag.unlocked ->
        result.1.shared.flags j = AepflFlag.unlocked -> i = j) ∧
      (forall t u,
        (result.1.thread t).pc.holdsLock = true ∨ (result.1.thread t).pc.inUnlock = true ->
        (result.1.thread u).pc.holdsLock = true ∨ (result.1.thread u).pc.inUnlock = true ->
        t = u) ∧
      acquisitions result.2 <+: tickets result.2 :=
  lock_exclusive_and_fifo true _ _ (Program.run_play_checked
    (fun _ _ _ s' checked => ⟨fits_of_two s', of_decide_eq_true checked⟩) fresh_init handover
    (by decide))

/-! ## With `trylock` -/

/-- At most 128 threads are inside. -/
def roomy : TransitionSystem.Guard (Machine Tid AepflLock AepflThread) (Tid × AepflEvent) :=
  fun _ _ _ s' => fits s'

/-- At most 128 threads are inside, `trylock` succeeds only while `head` equals
`tail`, and `unlock` locks only flags that have been unlocked. -/
def carefulTrylock : TransitionSystem.Guard (Machine Tid AepflLock AepflThread)
    (Tid × AepflEvent) :=
  fun _ s label s' => fits s' ∧ freeWhenTried s label ∧ storesInOrder s label

/-- The part of `carefulTrylock` that depends on the state before the step, decided. -/
def carefulCheck (s : Machine Tid AepflLock AepflThread) (label : Tid × AepflEvent) : Bool :=
  (label.2 ≠ .trylockReturned iSuccess || s.shared.head = s.shared.tail) &&
    match (s.thread label.1).pc with
    | .storeLocked slot => s.shared.flags slot = AepflFlag.unlocked
    | _ => true

theorem carefulTrylock_of_check (trace : List (Bool × AepflEvent))
    (s : Machine Bool AepflLock AepflThread) (label : Bool × AepflEvent)
    (s' : Machine Bool AepflLock AepflThread) (checked : carefulCheck s label = true) :
    carefulTrylock trace s label s' := by
  rw [carefulCheck, Bool.and_eq_true, Bool.or_eq_true] at checked
  refine ⟨fits_of_two s', fun success => ?_, fun slot isStore => ?_⟩
  · rcases checked.1 with fails | free
    · exact absurd success (of_decide_eq_true fails)
    · exact of_decide_eq_true free
  · have ordered := checked.2
    rw [isStore] at ordered
    exact of_decide_eq_true ordered

/-- A step inside `trylock` reports success or leaves the lock as it was. -/
theorem step_of_inTrylock {autolock : Bool} {t : Tid} {action : AepflAction}
    {lock lock' : AepflLock} {l l' : AepflThread} {event : AepflEvent}
    (stepped : step autolock t action lock l = some (lock', l', event))
    (trying : l.pc.inTrylock = true) : event = .trylockReturned iSuccess ∨ lock' = lock := by
  rcases l with ⟨pc, page⟩
  cases pc <;> cases action <;> simp only [step, reduceCtorEq] at stepped
  case tryLoadTail.run =>
    cases stepped
    exact Or.inr rfl
  case tryLoadHead.run =>
    split at stepped <;> cases stepped <;> exact Or.inr rfl
  case tryCompareExchange.run =>
    split at stepped <;> cases stepped
    · exact Or.inl rfl
    · exact Or.inr rfl
  case tryCompareExchange.failSpuriously =>
    cases stepped
    exact Or.inr rfl
  all_goals cases trying

theorem pc_of_success {autolock : Bool} {t : Tid} {action : AepflAction}
    {lock lock' : AepflLock} {l l' : AepflThread}
    (stepped : step autolock t action lock l = some (lock', l', .trylockReturned iSuccess)) :
    l'.pc.holdsLock = true := by
  have effect := step_effect stepped
  generalize place l.pc = before at effect
  generalize isHolding : place l'.pc = after at effect
  cases effect with
  | silent _ quiet => rcases quiet with quiet | quiet <;> cases quiet
  | wins => cases pc : l'.pc <;> rw [pc] at isHolding <;> first | rfl | cases isHolding

/-- With `head` equal to `tail` nobody holds the lock or waits for it. -/
theorem Explained.nobody {g : Ghost Tid} {lock : AepflLock} (explained : Explained g lock)
    (window : g.Window) (equal : lock.head = lock.tail) {u : Tid} {pc : AepflPc}
    (here : g.At u (place pc)) : pc.holdsLock = false ∧ pc.queued = false := by
  rcases explained.empty window equal with ⟨released, free⟩
  have noWaiter : forall k, ¬ g.queue.Waiting u k := by
    intro k waits
    have taken := waits.hasTicket.lt_length
    have later := waits.2.1
    omega
  have noHolder : ¬ g.queue.Holding u := by
    intro holds
    have := holds.1
    omega
  refine ⟨Bool.eq_false_iff.mpr fun holds => noHolder (here.of_holdsLock holds), ?_⟩
  apply Bool.eq_false_iff.mpr
  intro waits
  cases pc <;> cases waits
  case disarm => exact noWaiter _ here.1
  all_goals
    rcases here with ⟨k, waiting, _⟩
    exact noWaiter k waiting

/-- A thread that neither holds the lock nor is unlocking has not been granted its ticket. -/
theorem Explained.ungranted {g : Ghost Tid} {lock : AepflLock} (explained : Explained g lock)
    {u : Tid} {pc : AepflPc} (here : g.At u (place pc)) (notHolding : pc.holdsLock = false)
    (notUnlocking : pc.inUnlock = false) {k : Nat} (ticket : g.served.HasTicket u k) :
    g.queue.grants ≤ k := by
  have waitsAt : forall j, g.queue.Waiting u j -> g.queue.grants ≤ k := by
    intro j waits
    have same := explained.served_wellFormed.unique u j k
      ⟨waits.1, explained.turn_le.trans waits.2.1⟩ ticket
    exact same ▸ waits.2.2
  have noTicket : ¬ g.served.Outside u := FifoState.not_outside_iff.mpr ⟨k, ticket⟩
  cases pc
  case holding => cases notHolding
  case fetchAddHead => cases notHolding
  case storeLocked => cases notUnlocking
  case storeUnlocked => cases notUnlocking
  case outside => exact absurd here noTicket
  case tryLoadTail => exact absurd here noTicket
  case tryLoadHead => exact absurd here noTicket
  case tryCompareExchange => exact absurd here noTicket
  case fetchAddTail => exact absurd here noTicket
  case disarm => exact waitsAt _ here.1
  all_goals
    rcases here with ⟨j, waits, _⟩
    exact waitsAt j waits

/-- While nobody holds the lock or is unlocking, the turn is that of the next
ticket to be granted, and its flag is unlocked. -/
theorem Explained.next_unlocked {g : Ghost Tid} {lock : AepflLock} (explained : Explained g lock)
    {pc : Tid -> AepflPc} (places : forall u, g.At u (place (pc u)))
    (idle : forall u, (pc u).holdsLock = false ∧ (pc u).inUnlock = false) (slot : AepflSlot) :
    lock.flags slot = AepflFlag.unlocked <-> slot = aepflSlot g.queue.grants := by
  have wellFormed := explained.wellFormed
  have ungranted : g.queue.grants ≤ g.turn := by
    by_contra granted
    have bounded : g.turn < g.queue.arrivals.length :=
      (Nat.lt_of_not_le granted).trans_le wellFormed.grants_le_length
    have atTurn := List.getElem?_eq_getElem bounded
    exact granted (explained.ungranted (places _) (idle _).1 (idle _).2 ⟨atTurn, Nat.le_refl _⟩)
  have isTurn : g.queue.grants = g.turn :=
    le_antisymm ungranted (explained.turn_le.trans wellFormed.releases_le_grants)
  have notPassing : g.passing = false := by
    apply Bool.eq_false_iff.mpr
    intro passing
    have := explained.passing_lt passing
    have := wellFormed.releases_le_grants
    omega
  rw [explained.flags slot, isTurn]
  simp only [notPassing, and_true]
  split
  · next same => exact iff_of_true rfl same
  · next different => exact iff_of_false (by decide) different

theorem acquisitions_length {trace : List (Tid × AepflEvent)} {queue : FifoState Tid}
    (explains : queue.Explains (trace.flatMap observe)) :
    (acquisitions trace).length = queue.grants := by
  rw [← acquisitions_eq, explains.acquisitions_eq, List.length_take]
  exact Nat.min_eq_left explains.wellFormed.grants_le_length

/-- In every run in which `trylock` is careful: a `trylock` about to succeed
finds nobody holding the lock or waiting for it, and leaves its caller with the
lock; at most one thread holds the lock at a time; the lock is granted in the
order of the tickets, and while nobody holds it or is unlocking, the flag of
the next ticket and no other is unlocked; and a step of `trylock` that does not
report success changes nothing. -/
theorem trylock_exclusive_and_fifo [DecidableEq Tid] (autolock : Bool)
    (trace : List (Tid × AepflEvent)) (s : Machine Tid AepflLock AepflThread)
    (run : (system autolock).Run carefulTrylock trace s) :
    (forall t action lock' l',
        (program Tid autolock).step t action s.shared (s.thread t) =
          some (lock', l', .trylockReturned iSuccess) ->
        s.shared.head = s.shared.tail ->
        (forall u, (s.thread u).pc.holdsLock = false ∧ (s.thread u).pc.queued = false) ∧
          l'.pc.holdsLock = true) ∧
      (forall t u, (s.thread t).pc.holdsLock = true -> (s.thread u).pc.holdsLock = true -> t = u) ∧
      acquisitions trace <+: tickets trace ∧
      ((forall u, (s.thread u).pc.holdsLock = false ∧ (s.thread u).pc.inUnlock = false) ->
        forall slot, s.shared.flags slot = AepflFlag.unlocked <->
          slot = aepflSlot (acquisitions trace).length) ∧
      (forall t action lock' l' event,
        (program Tid autolock).step t action s.shared (s.thread t) = some (lock', l', event) ->
        (s.thread t).pc.inTrylock = true -> event ≠ .trylockReturned iSuccess ->
        lock' = s.shared) := by
  have orderlyRun : (system autolock).Run orderly trace s :=
    run.weaken fun _ _ _ _ allowed => ⟨allowed.1, allowed.2.1, Or.inl allowed.2.2⟩
  rcases (threadInvariant autolock).run orderlyRun with ⟨g, specRun, ⟨explained, window, _⟩, locals⟩
  have explains := FifoState.explains specRun
  refine ⟨?_, ?_, ?_, ?_, ?_⟩
  · intro t action lock' l' stepped free
    refine ⟨fun u => explained.nobody window free (locals u), ?_⟩
    exact pc_of_success (show Aepfl.step autolock t _ _ _ = _ from stepped)
  · intro t u first second
    exact ((locals t).of_holdsLock first).unique ((locals u).of_holdsLock second)
  · rw [← acquisitions_eq, ← tickets_eq]
    exact explains.acquisitions_ordered
  · intro idle slot
    rw [acquisitions_length explains]
    exact explained.next_unlocked locals idle slot
  · intro t action lock' l' event stepped trying noSuccess
    exact (step_of_inTrylock (show Aepfl.step autolock t _ _ _ = _ from stepped)
      trying).resolve_left noSuccess

/-- `trylock` succeeds on the free lock and hands over to a waiting `lock`. -/
def tryThenHandover : List (Bool × AepflAction) :=
  [(false, .callTrylock), (false, .run), (false, .run), (false, .run), (true, .callLock),
    (true, .run), (true, .run), (true, .run), (true, .run), (true, .run), (true, .run),
    (false, .callUnlock), (false, .run), (false, .run), (false, .run), (true, .run), (true, .run)]

theorem trylock_exclusive_and_fifo_tryThenHandover :
    let result := (program Bool true).play tryThenHandover (fresh Bool)
    (forall t action lock' l',
        (program Bool true).step t action result.1.shared (result.1.thread t) =
          some (lock', l', .trylockReturned iSuccess) ->
        result.1.shared.head = result.1.shared.tail ->
        (forall u, (result.1.thread u).pc.holdsLock = false ∧
          (result.1.thread u).pc.queued = false) ∧ l'.pc.holdsLock = true) ∧
      (forall t u, (result.1.thread t).pc.holdsLock = true ->
        (result.1.thread u).pc.holdsLock = true -> t = u) ∧
      acquisitions result.2 <+: tickets result.2 ∧
      ((forall u, (result.1.thread u).pc.holdsLock = false ∧
          (result.1.thread u).pc.inUnlock = false) ->
        forall slot, result.1.shared.flags slot = AepflFlag.unlocked <->
          slot = aepflSlot (acquisitions result.2).length) ∧
      (forall t action lock' l' event,
        (program Bool true).step t action result.1.shared (result.1.thread t) =
          some (lock', l', event) ->
        (result.1.thread t).pc.inTrylock = true -> event ≠ .trylockReturned iSuccess ->
        lock' = result.1.shared) :=
  trylock_exclusive_and_fifo true _ _ (Program.run_play_checked carefulTrylock_of_check fresh_init
    tryThenHandover (by decide))

/-- The lock is held; `trylock` of the other thread reads `tail` twice, finds
it unchanged and succeeds. -/
def tryWhileHeld : List (Bool × AepflAction) :=
  [(false, .callLock), (false, .run), (false, .run), (true, .callTrylock), (true, .run),
    (true, .run), (true, .run)]

/-- With two threads inside, both hold the lock. -/
theorem trylock_shared_tryWhileHeld :
    let s := ((program Bool true).play tryWhileHeld (fresh Bool)).1
    (system true).Run roomy ((program Bool true).play tryWhileHeld (fresh Bool)).2 s ∧
      (s.thread false).pc.holdsLock = true ∧ (s.thread true).pc.holdsLock = true :=
  ⟨(Program.run_play fresh_init tryWhileHeld (by decide)).restrict
    fun _ _ _ s' _ => fits_of_two s', by decide, by decide⟩

end Aepfl

end UserLocks
end Autolock
