import Autolock.Concurrency.TicketLedger
import Autolock.UserLocks.AepflExclusion

namespace Autolock
namespace UserLocks

open Concurrency

/-!
# How far back a waiter of the array-queue lock takes itself to be

A thread that finds its flag locked subtracts `head` from its slot and compares
the difference with `I_AEPFL_PAUSE_BOUND`.  Within the bound it only spins;
otherwise it pauses a while and then yields.

The slot is the ticket reduced modulo 128, but `head` runs on.  The difference
is the number of earlier tickets that have not been given back only for the
first 128 tickets, and then again for the first 128 after each wrap of the
counters, as long as no later ticket has been given back first.
-/

namespace Aepfl

variable {Tid : Type}

/-- What `slot -= lock->head` leaves in `slot`. -/
def waitDistance (slot : AepflSlot) (head : UInt32) : UInt32 := UInt32.ofNat slot.val - head

theorem waitDistance_eq (ticket released : Nat) :
    waitDistance (aepflSlot ticket) (wrap released) = wrap (ticket % 128) - wrap released :=
  rfl

variable [DecidableEq Tid]

/-- The tickets of a run: whose they are and whether `head` has been advanced for them. -/
def ledger (trace : List (Tid × AepflEvent)) : List (TicketEntry Tid) :=
  TicketLedger.ofMoves (trace.flatMap observe)

theorem ledger_concat (trace : List (Tid × AepflEvent)) (label : Tid × AepflEvent) :
    ledger (trace ++ [label]) = (observe label).foldl TicketLedger.note (ledger trace) := by
  rw [ledger, List.flatMap_append, List.flatMap_singleton, TicketLedger.ofMoves_append]
  rfl

open TicketLedger

/-- The waiter that is about to read `head` computes the number of earlier
tickets for which `head` has not been advanced, and spins without yielding
exactly if that number is within the bound. -/
structure ShowsDistance (autolock : Bool) (trace : List (Tid × AepflEvent))
    (s : Machine Tid AepflLock AepflThread) (t : Tid) (slot : AepflSlot) : Prop where
  distance : (waitDistance slot s.shared.head).toNat = openBefore (ledger trace) t
  choice : forall lock' l' event,
    (program Tid autolock).step t .run s.shared (s.thread t) = some (lock', l', event) ->
      l'.pc = if openBefore (ledger trace) t ≤ aepflPauseBound.toNat then .nearHead slot
        else .pausing slot (lockWaitStart aepflPauseIters)

/-! ## The tickets of every run -/

section entries

variable {entries : List (TicketEntry Tid)} {t u : Tid}

/-- What the ledger says about a thread at each place. -/
def Noted (entries : List (TicketEntry Tid)) (t : Tid) : Place -> Prop
  | .apart | .unlocking _ | .passing _ => openCount entries t = 0
  | .waiting slot => openCount entries t = 1 ∧ slot = aepflSlot (ticketOf entries t)
  | .granted | .holding => openCount entries t = 1

/-- The counters show how many tickets have been taken and given back. -/
structure Counted (entries : List (TicketEntry Tid)) (lock : AepflLock) : Prop where
  tail : lock.tail = wrap entries.length
  head : lock.head = wrap (releases entries)

theorem Noted.of_same {there : Place} {entries' : List (TicketEntry Tid)}
    (noted : Noted entries u there) (count : openCount entries' u = openCount entries u)
    (ticket : 0 < openCount entries u -> ticketOf entries' u = ticketOf entries u) :
    Noted entries' u there := by
  cases there with
  | waiting slot =>
      rcases noted with ⟨one, rfl⟩
      exact ⟨count.trans one, by rw [ticket (one ▸ Nat.one_pos)]⟩
  | apart => exact count.trans noted
  | unlocking slot => exact count.trans noted
  | passing slot => exact count.trans noted
  | granted => exact count.trans noted
  | holding => exact count.trans noted

theorem Noted.arrive {there : Place} (noted : Noted entries u there) (different : u ≠ t) :
    Noted (note entries (.arrive t)) u there :=
  noted.of_same (openCount_arrive different) ticketOf_arrive

theorem Noted.release {there : Place} (noted : Noted entries u there) (different : u ≠ t) :
    Noted (note entries (.release t)) u there :=
  noted.of_same (openCount_release different) fun _ => ticketOf_release different

theorem Counted.arrive {lock : AepflLock} (counted : Counted entries lock) (t : Tid) :
    Counted (note entries (.arrive t)) { lock with tail := lock.tail + 1 } where
  tail := by rw [counted.tail, length_arrive, wrap_succ]
  head := by rw [releases_arrive, counted.head]

theorem Counted.release {lock : AepflLock} (counted : Counted entries lock)
    (one : openCount entries t = 1) :
    Counted (note entries (.release t)) { lock with head := lock.head + 1 } where
  tail := by rw [length_release, counted.tail]
  head := by rw [counted.head, releases_release, one, wrap_succ]

/-- Every step keeps the ledger, whoever is inside and whatever `trylock` does. -/
theorem noted_step {lock lock' : AepflLock} {there there' : Place} {event : AepflEvent}
    (counted : Counted entries lock) (here : Noted entries t there)
    (effect : StepEffect lock lock' there there' event) :
    Counted ((observe (t, event)).foldl note entries) lock' ∧
      Noted ((observe (t, event)).foldl note entries) t there' ∧
      forall u, u ≠ t -> forall place, Noted entries u place ->
        Noted ((observe (t, event)).foldl note entries) u place := by
  cases effect with
  | silent there quiet =>
      rcases quiet with rfl | rfl
      · exact ⟨counted, here, fun _ _ _ noted => noted⟩
      · exact ⟨counted, here, fun _ _ _ noted => noted⟩
  | wins =>
      have none : openCount entries t = 0 := here
      have one : openCount (note entries (.arrive t)) t = 1 := by rw [openCount_arrive_self, none]
      exact ⟨counted.arrive t, one, fun u different place noted => noted.arrive different⟩
  | takes =>
      have none : openCount entries t = 0 := here
      refine ⟨counted.arrive t, ⟨?_, ?_⟩, fun u different place noted => noted.arrive different⟩
      · show openCount (note entries (.arrive t)) t = 1
        rw [openCount_arrive_self, none]
      · show fetchAddSlot lock.tail = aepflSlot (ticketOf (note entries (.arrive t)) t)
        rw [counted.tail, fetchAddSlot_wrap, ticketOf_arrive_self none]
  | sees_turn free => exact ⟨counted, here.1, fun _ _ _ noted => noted⟩
  | enters turn =>
      have one : openCount entries t = 1 := by
        rcases turn with rfl | ⟨slot, rfl, _⟩
        · exact here
        · exact here.1
      exact ⟨counted, one, fun _ _ _ noted => noted⟩
  | takes_head =>
      exact ⟨counted.release here, openCount_release_self,
        fun u different place noted => noted.release different⟩
  | locks slot => exact ⟨⟨counted.tail, counted.head⟩, here, fun _ _ _ noted => noted⟩
  | unlocks slot => exact ⟨⟨counted.tail, counted.head⟩, here, fun _ _ _ noted => noted⟩

end entries

/-- After every run the counters and the threads agree with the ledger. -/
theorem run_noted {autolock : Bool} {guard : TransitionSystem.Guard _ _}
    {trace : List (Tid × AepflEvent)} {s : Machine Tid AepflLock AepflThread}
    (run : (system autolock).Run guard trace s) :
    Counted (ledger trace) s.shared ∧
      forall t, Noted (ledger trace) t (place (s.thread t).pc) := by
  refine run.invariant (fun trace s => Counted (ledger trace) s.shared ∧
    forall t, Noted (ledger trace) t (place (s.thread t).pc)) ?_ ?_
  · rintro s ⟨shared, threads⟩
    rw [shared]
    refine ⟨⟨rfl, rfl⟩, fun t => ?_⟩
    rw [(threads t).1]
    rfl
  · rintro trace s ⟨t, event⟩ s' ⟨counted, noted⟩ moved _
    rcases Program.system_next moved with ⟨action, lock', l', stepped, rfl⟩
    have effect := step_effect (show Aepfl.step autolock t _ _ _ = _ from stepped)
    rw [ledger_concat]
    rcases noted_step counted (noted t) effect with ⟨counted', own, others⟩
    refine ⟨counted', fun u => ?_⟩
    by_cases same : u = t
    · subst same
      simpa only [Function.update_self] using own
    · simpa only [Function.update_of_ne same] using others u same _ (noted u)

/-! ## The distance -/

omit [DecidableEq Tid] in
/-- Which way a waiter goes is decided by the computed difference. -/
theorem step_loadHead {autolock : Bool} {t : Tid} {lock lock' : AepflLock} {l l' : AepflThread}
    {event : AepflEvent} {slot : AepflSlot} (waits : l.pc = .loadHead slot)
    (stepped : step autolock t .run lock l = some (lock', l', event)) :
    l'.pc = if (waitDistance slot lock.head).toNat ≤ aepflPauseBound.toNat then .nearHead slot
      else .pausing slot (lockWaitStart aepflPauseIters) := by
  simp only [step, waits] at stepped
  split at stepped
  · next near =>
      cases stepped
      exact (if_pos (UInt32.le_iff_toNat_le.mp near)).symm
  · next far =>
      cases stepped
      exact (if_neg (mt UInt32.le_iff_toNat_le.mpr far)).symm

/-- The difference is right exactly if the ticket, with the later tickets that
have overtaken it, shows as its slot. -/
theorem showsDistance_iff {autolock : Bool} {trace : List (Tid × AepflEvent)}
    {s : Machine Tid AepflLock AepflThread} {t : Tid} {slot : AepflSlot}
    (counted : Counted (ledger trace) s.shared)
    (noted : Noted (ledger trace) t (place (s.thread t).pc))
    (waits : (s.thread t).pc = .loadHead slot) :
    ShowsDistance autolock trace s t slot <->
      openBefore (ledger trace) t < 2 ^ 32 ∧
        ticketOf (ledger trace) t % 128 ≡
          ticketOf (ledger trace) t + releasedAfter (ledger trace) t [MOD 2 ^ 32] := by
  rw [waits] at noted
  rcases noted with ⟨one, ofTicket⟩
  have split := releases_add_openBefore (one ▸ Nat.one_pos)
  have distance_iff : (waitDistance slot s.shared.head).toNat = openBefore (ledger trace) t <->
      openBefore (ledger trace) t < 2 ^ 32 ∧
        ticketOf (ledger trace) t % 128 ≡
          ticketOf (ledger trace) t + releasedAfter (ledger trace) t [MOD 2 ^ 32] := by
    rw [ofTicket, counted.head, waitDistance_eq, wrap_sub_toNat_eq_iff, split]
  constructor
  · intro shows
    exact distance_iff.mp shows.distance
  · intro condition
    have right := distance_iff.mpr condition
    refine ⟨right, fun lock' l' event stepped => ?_⟩
    rw [← right]
    exact step_loadHead waits (show Aepfl.step autolock t _ _ _ = _ from stepped)

/-- In every run, a waiter about to read `head` computes its distance to the
head of the queue, and spins or yields accordingly, exactly if its ticket
number and the number of later tickets already given back add up to its slot,
modulo the period of the counters. -/
theorem waitDistance_iff (autolock : Bool) (trace : List (Tid × AepflEvent))
    (s : Machine Tid AepflLock AepflThread)
    (run : (system autolock).Run TransitionSystem.unguarded trace s) (t : Tid) (slot : AepflSlot)
    (waits : (s.thread t).pc = .loadHead slot) :
    ShowsDistance autolock trace s t slot <->
      openBefore (ledger trace) t < 2 ^ 32 ∧
        ticketOf (ledger trace) t % 128 ≡
          ticketOf (ledger trace) t + releasedAfter (ledger trace) t [MOD 2 ^ 32] := by
  rcases run_noted run with ⟨counted, noted⟩
  exact showsDistance_iff counted (noted t) waits

/-- The second thread waits behind the first. -/
def waitsBehind : List (Bool × AepflAction) :=
  [(false, .callLock), (false, .run), (false, .run), (true, .callLock), (true, .run), (true, .run)]

theorem waitDistance_iff_waitsBehind :
    let s := ((program Bool false).play waitsBehind (fresh Bool)).1
    let trace := ((program Bool false).play waitsBehind (fresh Bool)).2
    ShowsDistance false trace s true 1 <->
      openBefore (ledger trace) true < 2 ^ 32 ∧
        ticketOf (ledger trace) true % 128 ≡
          ticketOf (ledger trace) true + releasedAfter (ledger trace) true [MOD 2 ^ 32] :=
  waitDistance_iff false _ _ (Program.run_play fresh_init waitsBehind (by decide)) true 1 (by decide)

/-- While at most 128 threads are inside and no `trylock` succeeds, nobody is
overtaken, and the distance is right only for the first 128 tickets of every
period of the counters. -/
theorem showsDistance_iff_of_withoutTrylock {autolock : Bool} {trace : List (Tid × AepflEvent)}
    {s : Machine Tid AepflLock AepflThread} (run : (system autolock).Run withoutTrylock trace s)
    {t : Tid} {slot : AepflSlot} (waits : (s.thread t).pc = .loadHead slot) :
    ShowsDistance autolock trace s t slot <-> ticketOf (ledger trace) t % 2 ^ 32 < 128 := by
  rcases run_noted run with ⟨counted, noted⟩
  rcases (threadInvariant autolock).run (run_orderly run).1 with
    ⟨g, specRun, ⟨explained, window, _⟩, _⟩
  have inTurn : ledger trace = inOrder g.queue := ofMoves_eq_inOrder specRun
  have someOpen : 0 < openCount (ledger trace) t := by
    have here := noted t
    rw [waits] at here
    exact here.1 ▸ Nat.one_pos
  have notOvertaken : releasedAfter (ledger trace) t = 0 := by
    rw [inTurn]
    exact releasedAfter_inOrder (inTurn ▸ someOpen)
  have few : openBefore (ledger trace) t < 128 := by
    have split := releases_add_openBefore someOpen
    have taken := ticketOf_lt someOpen
    have served : releases (ledger trace) = min g.queue.releases g.queue.arrivals.length := by
      rw [inTurn, releases_inOrder]
    have length : (ledger trace).length = g.queue.arrivals.length := by
      rw [inTurn, inOrder, List.length_mapIdx]
    have turn_le := explained.turn_le
    simp only [Ghost.Window, aepflMaxThreads] at window
    omega
  rw [showsDistance_iff counted (noted t) waits, notOvertaken, Nat.add_zero]
  simp only [Nat.ModEq]
  omega

/-! ## After 128 acquisitions -/

/-- The lock when nobody is inside and `n` tickets have been taken. -/
def quiet (n : Nat) : AepflLock where
  tail := wrap n
  head := wrap n
  flags := Function.update (fun _ => AepflFlag.locked) (aepflSlot n) AepflFlag.unlocked

/-- The flags after the holder of ticket `n` has passed the lock on. -/
theorem flags_quiet_succ (n : Nat) :
    Function.update (Function.update (quiet n).flags (aepflSlot n) AepflFlag.locked)
        (aepflSlot (n + 1)) AepflFlag.unlocked = (quiet (n + 1)).flags := by
  simp [quiet]

omit [DecidableEq Tid] in
/-- `lock` and `unlock` of a thread alone. -/
theorem solo_round (autolock : Bool) (t : Tid) (page : KernelAutolockAbi AepflSlot) (n : Nat) :
    (program Tid autolock).Solo t (quiet n) ⟨.outside, page⟩
      [.internal, .tookTicket, .lockReturned iSuccess, .internal, .tookHead, .internal,
        .unlockReturned iSuccess]
      (quiet (n + 1)) ⟨.outside, page⟩ := by
  have free : (quiet n).flags (fetchAddSlot (wrap n)) ≠ AepflFlag.locked := by
    simp [quiet, AepflFlag.locked, AepflFlag.unlocked]
  have done : (⟨wrap n + 1, wrap n + 1,
      Function.update (Function.update (quiet n).flags (fetchAddSlot (wrap n)) AepflFlag.locked)
        (getNextSlot (fetchAddSlot (wrap n))) AepflFlag.unlocked⟩ : AepflLock) = quiet (n + 1) := by
    rw [fetchAddSlot_wrap, getNextSlot_aepflSlot, flags_quiet_succ, ← wrap_succ]
    rfl
  rw [← done]
  refine .cons .callLock rfl (.cons AepflAction.run rfl ?_)
  refine .cons AepflAction.run (if_neg free) ?_
  exact .cons .callUnlock rfl (.cons AepflAction.run rfl (.cons AepflAction.run rfl
    (.cons AepflAction.run rfl (.refl _ _))))

/-- A thread alone on the lock gets through any number of rounds. -/
theorem run_rounds (autolock : Bool) (t : Tid) (n : Nat) :
    exists trace, (system autolock).Run TransitionSystem.unguarded trace
        ⟨quiet n, (fresh Tid).thread⟩ ∧
      ledger trace = List.replicate n ⟨t, true⟩ := by
  induction n with
  | zero => exact ⟨[], .start fresh_init, rfl⟩
  | succ n inductionHypothesis =>
      rcases inductionHypothesis with ⟨trace, run, noted⟩
      have round := (solo_round autolock t ⟨none, 0, 0⟩ n).run_back rfl run
      refine ⟨_, round, ?_⟩
      rw [ledger, List.flatMap_append, ofMoves_append, ← ledger, noted, List.replicate_succ']
      simp [observe, note, giveBack]

/-- Behind the holder of a lock that has been used before, one ticket is ahead. -/
theorem openBefore_second {t u : Tid} (different : t ≠ u) (n : Nat) :
    openBefore (List.replicate n ⟨t, true⟩ ++ [⟨t, false⟩, ⟨u, false⟩]) u = 1 := by
  have absent : (⟨u, false⟩ : TicketEntry Tid) ∉ List.replicate n ⟨t, true⟩ := by
    intro member
    cases congrArg TicketEntry.released (List.eq_of_mem_replicate member)
  have ticket : ticketOf (List.replicate n ⟨t, true⟩ ++ [⟨t, false⟩, ⟨u, false⟩]) u = n + 1 := by
    simp [ticketOf, List.idxOf_append_of_notMem absent, different]
  rw [openBefore, ticket, List.take_append, List.length_replicate, Nat.add_sub_cancel_left,
    List.take_of_length_le (by simp), List.countP_append, List.countP_replicate]
  rfl

/-- The thread that waits behind the first after 128 rounds has ticket 129 and
slot 1.  One ticket is before its own, but it computes `1 - 128` and will yield. -/
theorem distance_wrong_after_128_rounds :
    let s := ((program Bool false).play waitsBehind ⟨quiet 128, (fresh Bool).thread⟩).1
    exists trace, (system false).Run TransitionSystem.unguarded trace s ∧
      (s.thread true).pc = .loadHead 1 ∧ openBefore (ledger trace) true = 1 ∧
      (waitDistance 1 s.shared.head).toNat = 4294967169 ∧ ¬ShowsDistance false trace s true 1 := by
  intro s
  rcases run_rounds false false 128 with ⟨before, run, noted⟩
  have played : (program Bool false).exec waitsBehind ⟨quiet 128, (fresh Bool).thread⟩ =
      some (s, [(false, .internal), (false, .tookTicket), (false, .lockReturned iSuccess),
        (true, .internal), (true, .tookTicket), (true, .internal)]) := rfl
  have ahead : openBefore (ledger (before ++ [(false, .internal), (false, .tookTicket),
      (false, .lockReturned iSuccess), (true, .internal), (true, .tookTicket),
      (true, .internal)])) true = 1 := by
    have entries : ledger (before ++ [(false, .internal), (false, .tookTicket),
        (false, .lockReturned iSuccess), (true, .internal), (true, .tookTicket),
        (true, .internal)]) = List.replicate 128 ⟨false, true⟩ ++ [⟨false, false⟩, ⟨true, false⟩] := by
      rw [ledger, List.flatMap_append, ofMoves_append, ← ledger, noted]
      simp [observe, note]
    rw [entries]
    exact openBefore_second Bool.false_ne_true 128
  have computed : (waitDistance 1 s.shared.head).toNat = 4294967169 := by decide
  refine ⟨_, run.append (Program.exec_steps played), by decide, ahead, computed, ?_⟩
  intro shows
  have same := shows.distance
  rw [ahead, computed] at same
  cases same

end Aepfl

end UserLocks
end Autolock
