import Autolock.Concurrency.Population
import Autolock.UserLocks.SimpleTicket
import Mathlib.Order.Interval.Finset.Nat

namespace Autolock
namespace UserLocks

open Concurrency

/-!
# Safety of the simple ticket lock

The two counters show the number of tickets taken and the number of tickets
released.  Less than a period lies between the two, so a waiter recognises its
own ticket.  For `trylock` the position of `next_count` at its first load is
kept as ghost state: equal counters mean that every ticket up to that position
had been released, and an unchanged `next_count` then means that no ticket has
been taken since, provided that it did not wrap around in between.
-/

namespace SimpleTicket

variable {Tid : Type}

/-! ## What one step does -/

/-- Where a thread is, as far as the tickets are concerned. -/
inductive Place where
  | apart
  | trying (ticketNum : UInt32)
  | claiming (ticketNum : UInt32)
  | waiting (ticketNum : UInt32)
  | granted
  | holding
  | releasing (curCount : UInt32)

def place : SimpleTicketPc -> Place
  | .outside | .tryLoadNext | .fetchAdd => .apart
  | .tryLoadCur ticketNum => .trying ticketNum
  | .tryCompareExchange ticketNum => .claiming ticketNum
  | .firstLoad ticketNum | .setWatchMem ticketNum | .setWatchFor ticketNum
  | .setWatchNeq ticketNum | .loadCur ticketNum => .waiting ticketNum
  | .disarm _ => .granted
  | .holding | .unlockLoad => .holding
  | .unlockStore curCount => .releasing curCount

/-- The kinds of step, with what each does to the counters and to the place of its thread. -/
inductive StepEffect (lock : SimpleTicketLock) :
    SimpleTicketLock -> Place -> Place -> SimpleTicketEvent -> Prop
  | silent (there : Place) : StepEffect lock lock there there .internal
  | loads_next :
      StepEffect lock lock .apart (.trying lock.nextCount) .trylockLoaded
  | sees_free : StepEffect lock lock (.trying lock.curCount) (.claiming lock.curCount) .internal
  | fails {there : Place} (trying : exists n, there = .trying n ∨ there = .claiming n) :
      StepEffect lock lock there .apart (.trylockReturned iFailure)
  | wins :
      StepEffect lock { lock with nextCount := lock.nextCount + 1 } (.claiming lock.nextCount)
        .holding (.trylockReturned iSuccess)
  | takes :
      StepEffect lock { lock with nextCount := lock.nextCount + 1 } .apart
        (.waiting lock.nextCount) .tookTicket
  | sees_turn : StepEffect lock lock (.waiting lock.curCount) .granted .internal
  | enters {there : Place} (turn : there = .waiting lock.curCount ∨ there = .granted) :
      StepEffect lock lock there .holding (.lockReturned iSuccess)
  | reads_cur : StepEffect lock lock .holding (.releasing lock.curCount) .internal
  | releases (curCount : UInt32) :
      StepEffect lock { lock with curCount := curCount + 1 } (.releasing curCount) .apart .unlocked

theorem step_effect {autolock : Bool} {t : Tid} {action : SimpleTicketAction}
    {lock lock' : SimpleTicketLock} {l l' : SimpleTicketThread} {event : SimpleTicketEvent}
    (stepped : step autolock t action lock l = some (lock', l', event)) :
    StepEffect lock lock' (place l.pc) (place l'.pc) event := by
  rcases l with ⟨pc, page⟩
  cases pc <;> cases action <;> simp only [step, reduceCtorEq] at stepped
  case tryLoadNext.run =>
    cases stepped
    exact .loads_next
  case tryLoadCur.run ticketNum =>
    split at stepped
    · next equal =>
        cases stepped
        rw [equal]
        exact .sees_free
    · cases stepped
      exact .fails ⟨ticketNum, Or.inl rfl⟩
  case tryCompareExchange.run ticketNum =>
    split at stepped
    · next equal =>
        cases stepped
        rw [← equal]
        exact .wins
    · cases stepped
      exact .fails ⟨ticketNum, Or.inr rfl⟩
  case tryCompareExchange.failSpuriously ticketNum =>
    cases stepped
    exact .fails ⟨ticketNum, Or.inr rfl⟩
  case fetchAdd.run =>
    cases stepped
    exact .takes
  case firstLoad.run ticketNum =>
    split at stepped
    · next equal =>
        cases stepped
        exact .enters (Or.inl (by rw [equal]; rfl))
    · cases stepped
      cases autolock <;> exact .silent _
  case loadCur.run ticketNum =>
    split at stepped
    · next zero =>
        have equal : ticketNum = lock.curCount := by grind
        cases autolock
        · cases stepped
          exact .enters (Or.inl (by rw [equal]; rfl))
        · cases stepped
          rw [equal]
          exact .sees_turn
    · cases stepped
      exact .silent _
  case disarm.run =>
    cases stepped
    exact .enters (Or.inr rfl)
  case unlockLoad.run =>
    cases stepped
    exact .reads_cur
  case unlockStore.run curCount =>
    cases stepped
    exact .releases curCount
  all_goals cases stepped
  all_goals exact .silent _

/-! ## Tickets as positions -/

/-- The queue of tickets, and for every thread the number of tickets that had
been taken when it last read `next_count` in `trylock`. -/
structure Ghost (Tid : Type) where
  queue : FifoState Tid
  began : Tid -> Nat

namespace Ghost

/-- The place of a thread in terms of the queue. -/
def At (g : Ghost Tid) (t : Tid) : Place -> Prop
  | .apart => g.queue.Outside t
  | .trying ticketNum => g.queue.Outside t ∧ ticketNum = wrap (g.began t)
  | .claiming ticketNum =>
      g.queue.Outside t ∧ ticketNum = wrap (g.began t) ∧ g.began t ≤ g.queue.releases
  | .waiting ticketNum => exists i, g.queue.Waiting t i ∧ ticketNum = wrap i
  | .granted => g.queue.Waiting t g.queue.releases
  | .holding => g.queue.Holding t
  | .releasing curCount => g.queue.Holding t ∧ curCount = wrap g.queue.releases

/-- A thread whose place has no ticket in it is outside the queue. -/
theorem At.hasTicket {g : Ghost Tid} {t : Tid} {pc : SimpleTicketPc} (here : g.At t (place pc))
    (inside : ¬ g.queue.Outside t) : pc.hasTicket = true := by
  cases pc
  case outside => exact absurd here inside
  case tryLoadNext => exact absurd here inside
  case tryLoadCur => exact absurd here.1 inside
  case tryCompareExchange => exact absurd here.1 inside
  case fetchAdd => exact absurd here inside
  all_goals rfl

section others

variable {g : Ghost Tid} {t u : Tid} {there : Place}

theorem At.arrive (here : g.At u there) (different : u ≠ t) :
    ({ g with queue := g.queue.arrive t } : Ghost Tid).At u there := by
  cases there with
  | apart => exact FifoState.Outside.arrive here different
  | trying => exact ⟨FifoState.Outside.arrive here.1 different, here.2⟩
  | claiming => exact ⟨FifoState.Outside.arrive here.1 different, here.2⟩
  | waiting =>
      rcases here with ⟨i, waits, shows⟩
      exact ⟨i, waits.arrive t, shows⟩
  | granted => exact FifoState.Waiting.arrive here t
  | holding => exact FifoState.Holding.arrive here t
  | releasing => exact ⟨here.1.arrive t, here.2⟩

/-- While `t` is first in the queue nobody else is granted or holding. -/
theorem At.acquire (here : g.At u there) (free : g.queue.grants = g.queue.releases)
    (first : g.queue.arrivals[g.queue.grants]? = some t) (different : u ≠ t) :
    ({ g with queue := g.queue.acquire } : Ghost Tid).At u there := by
  cases there with
  | apart => exact here
  | trying => exact here
  | claiming => exact here
  | waiting =>
      rcases here with ⟨i, waits, shows⟩
      exact ⟨i, waits.acquire first different, shows⟩
  | granted => exact absurd (Option.some.inj (here.1.symm.trans (free ▸ first))) different
  | holding =>
      have := here.1
      omega
  | releasing =>
      have := here.1.1
      omega

theorem At.release (here : g.At u there) (holds : g.queue.Holding t) (different : u ≠ t) :
    ({ g with queue := g.queue.release } : Ghost Tid).At u there := by
  cases there with
  | apart => exact FifoState.Outside.release here
  | trying => exact ⟨here.1.release, here.2⟩
  | claiming => exact ⟨here.1.release, here.2.1, Nat.le_succ_of_le here.2.2⟩
  | waiting =>
      rcases here with ⟨i, waits, shows⟩
      exact ⟨i, waits.release holds different, shows⟩
  | granted => exact absurd (Option.some.inj (here.1.symm.trans holds.2)) different
  | holding => exact absurd (here.unique holds) different
  | releasing => exact absurd (here.1.unique holds) different

theorem At.load [DecidableEq Tid] (here : g.At u there) (different : u ≠ t) (n : Nat) :
    ({ g with began := Function.update g.began t n } : Ghost Tid).At u there := by
  have same : Function.update g.began t n u = g.began u := Function.update_of_ne different _ _
  cases there <;> simpa only [At, same] using here

end others

end Ghost

/-! ## The counters of a run -/

theorem countSinceLoad_append [DecidableEq Tid] (counted : SimpleTicketEvent -> Bool) (t : Tid)
    (trace : List (Tid × SimpleTicketEvent)) (label : Tid × SimpleTicketEvent) :
    countSinceLoad counted t (trace ++ [label]) =
      if label = (t, .trylockLoaded) then 0
      else if counted label.2 then countSinceLoad counted t trace + 1
      else countSinceLoad counted t trace := by
  simp [countSinceLoad, List.foldl_append]

/-- How the ghost state explains the counters and the labels so far. -/
structure Explained [DecidableEq Tid] (trace : List (Tid × SimpleTicketEvent)) (g : Ghost Tid)
    (lock : SimpleTicketLock) : Prop where
  wellFormed : g.queue.WellFormed
  nextCount : lock.nextCount = wrap g.queue.arrivals.length
  curCount : lock.curCount = wrap g.queue.releases
  sinceLoad : forall t,
    g.began t + countSinceLoad takesTicket t trace = g.queue.arrivals.length

section explained

variable [DecidableEq Tid] {trace : List (Tid × SimpleTicketEvent)} {g : Ghost Tid}
  {lock : SimpleTicketLock} {t : Tid} {event : SimpleTicketEvent}

/-- A step that reads nothing into `began` and takes no ticket. -/
theorem Explained.sinceLoad_same (explained : Explained trace g lock)
    (notLoad : event ≠ .trylockLoaded) (notTicket : takesTicket event = false) (u : Tid) :
    g.began u + countSinceLoad takesTicket u (trace ++ [(t, event)]) =
      g.queue.arrivals.length := by
  rw [countSinceLoad_append, if_neg (by simp [notLoad])]
  simp only [notTicket, Bool.false_eq_true, if_false]
  exact explained.sinceLoad u

theorem Explained.sinceLoad_ticket (explained : Explained trace g lock)
    (notLoad : event ≠ .trylockLoaded) (ticket : takesTicket event = true) (u : Tid) :
    g.began u + countSinceLoad takesTicket u (trace ++ [(t, event)]) =
      (g.queue.arrive t).arrivals.length := by
  rw [countSinceLoad_append, if_neg (by simp [notLoad])]
  simp only [ticket, if_true, FifoState.arrive_length]
  rw [← Nat.add_assoc, explained.sinceLoad u]

/-- A thread that reads its own ticket from `cur_count` has the first ticket. -/
theorem Explained.first (explained : Explained trace g lock)
    (few : g.queue.arrivals.length < g.queue.releases + 2 ^ 32)
    (here : g.At t (.waiting lock.curCount)) : g.queue.Waiting t g.queue.releases := by
  rcases here with ⟨i, waits, shows⟩
  rw [explained.curCount] at shows
  have bounded := waits.hasTicket.lt_length
  have same := wrap_injective waits.2.1 (by omega) shows
  rwa [← same] at waits

theorem Explained.free (explained : Explained trace g lock)
    (waits : g.queue.Waiting t g.queue.releases) : g.queue.grants = g.queue.releases :=
  le_antisymm waits.2.2 explained.wellFormed.releases_le_grants

/-- The first ticket is granted to its owner. -/
theorem Explained.grant (explained : Explained trace g lock)
    (waits : g.queue.Waiting t g.queue.releases) :
    exists g' : Ghost Tid,
      (fifoLock Tid).Steps g.queue [.acquire t] g'.queue ∧
        Explained (trace ++ [(t, .lockReturned iSuccess)]) g' lock ∧ g'.At t .holding ∧
        forall u, u ≠ t -> forall there, g.At u there -> g'.At u there := by
  have free := explained.free waits
  have first : g.queue.arrivals[g.queue.grants]? = some t := free ▸ waits.1
  refine ⟨{ g with queue := g.queue.acquire }, .single ⟨free, first, rfl⟩, ?_,
    FifoState.holding_acquire_self free first,
    fun u different there other => other.acquire free first different⟩
  exact ⟨explained.wellFormed.acquire free first, explained.nextCount, explained.curCount,
    explained.sinceLoad_same (by simp) rfl⟩

/-- A compare-exchange that finds `next_count` unchanged finds the queue empty. -/
theorem Explained.unclaimed (explained : Explained trace g lock)
    (here : g.At t (.claiming lock.nextCount))
    (within : countSinceLoad takesTicket t trace < 2 ^ 32) :
    g.queue.arrivals.length = g.queue.releases ∧ g.queue.grants = g.queue.releases := by
  rcases here with ⟨_, shows, released⟩
  have total := explained.sinceLoad t
  have taken : g.began t = g.queue.arrivals.length :=
    wrap_injective (by omega) (by omega) (shows.symm.trans explained.nextCount)
  have := explained.wellFormed.releases_le_grants
  have := explained.wellFormed.grants_le_length
  omega

/-- Every kind of step has a ghost step that the specification allows, that
keeps the explanation of the counters, and that leaves the other threads alone. -/
theorem ghost_step {lock' : SimpleTicketLock} {there there' : Place}
    (explained : Explained trace g lock)
    (few : g.queue.arrivals.length < g.queue.releases + 2 ^ 32) (here : g.At t there)
    (effect : StepEffect lock lock' there there' event)
    (within : event = .trylockReturned iSuccess -> countSinceLoad takesTicket t trace < 2 ^ 32) :
    exists g' : Ghost Tid,
      (fifoLock Tid).Steps g.queue (observe (t, event)) g'.queue ∧
        Explained (trace ++ [(t, event)]) g' lock' ∧ g'.At t there' ∧
        forall u, u ≠ t -> forall there, g.At u there -> g'.At u there := by
  have wellFormed := explained.wellFormed
  cases effect with
  | silent =>
      exact ⟨g, .refl _, ⟨wellFormed, explained.nextCount, explained.curCount,
        explained.sinceLoad_same (by simp) rfl⟩, here, fun _ _ _ other => other⟩
  | loads_next =>
      refine ⟨{ g with began := Function.update g.began t g.queue.arrivals.length }, .refl _,
        ⟨wellFormed, explained.nextCount, explained.curCount, fun u => ?_⟩, ⟨here, ?_⟩,
        fun u different there other => other.load different _⟩
      · rw [countSinceLoad_append]
        by_cases same : u = t
        · simp [same]
        · have total := explained.sinceLoad u
          simpa [same, Ne.symm same, takesTicket] using total
      · simp [explained.nextCount]
  | sees_free =>
      rcases here with ⟨outside, shows⟩
      refine ⟨g, .refl _, ⟨wellFormed, explained.nextCount, explained.curCount,
        explained.sinceLoad_same (by simp) rfl⟩, ⟨outside, shows, ?_⟩, fun _ _ _ other => other⟩
      have total := explained.sinceLoad t
      exact le_of_wrap_eq (by omega) (shows.symm.trans explained.curCount)
  | fails trying =>
      refine ⟨g, .refl _, ⟨wellFormed, explained.nextCount, explained.curCount,
        explained.sinceLoad_same (by simp) rfl⟩, ?_, fun _ _ _ other => other⟩
      rcases trying with ⟨n, rfl | rfl⟩
      · exact here.1
      · exact here.1
  | wins =>
      have outside : g.queue.Outside t := here.1
      rcases explained.unclaimed here (within rfl) with ⟨empty, free⟩
      have free' : (g.queue.arrive t).grants = (g.queue.arrive t).releases := free
      have first : (g.queue.arrive t).arrivals[(g.queue.arrive t).grants]? = some t := by
        simp [FifoState.arrive, free, ← empty]
      refine ⟨{ g with queue := (g.queue.arrive t).acquire },
        .cons ⟨outside, rfl⟩ (.single ⟨free', first, rfl⟩), ?_,
        FifoState.holding_acquire_self free' first, fun u different there other =>
        (other.arrive different).acquire free' first different⟩
      refine ⟨(wellFormed.arrive outside).acquire free' first, ?_, explained.curCount,
        explained.sinceLoad_ticket (by simp) rfl⟩
      simp [explained.nextCount]
  | takes =>
      have outside : g.queue.Outside t := here
      refine ⟨{ g with queue := g.queue.arrive t }, .single ⟨outside, rfl⟩, ?_,
        ⟨_, FifoState.waiting_arrive_self wellFormed t, explained.nextCount⟩,
        fun u different there other => other.arrive different⟩
      refine ⟨wellFormed.arrive outside, ?_, explained.curCount,
        explained.sinceLoad_ticket (by simp) rfl⟩
      simp [explained.nextCount]
  | sees_turn =>
      exact ⟨g, .refl _, ⟨wellFormed, explained.nextCount, explained.curCount,
        explained.sinceLoad_same (by simp) rfl⟩, explained.first few here,
        fun _ _ _ other => other⟩
  | enters turn =>
      apply explained.grant
      rcases turn with rfl | rfl
      · exact explained.first few here
      · exact here
  | reads_cur =>
      exact ⟨g, .refl _, ⟨wellFormed, explained.nextCount, explained.curCount,
        explained.sinceLoad_same (by simp) rfl⟩, ⟨here, explained.curCount⟩,
        fun _ _ _ other => other⟩
  | releases curCount =>
      rcases here with ⟨holds, shows⟩
      refine ⟨{ g with queue := g.queue.release }, .single ⟨holds, rfl⟩, ?_,
        FifoState.outside_release_self wellFormed holds,
        fun u different there other => other.release holds different⟩
      refine ⟨wellFormed.release holds, explained.nextCount, ?_,
        explained.sinceLoad_same (by simp) rfl⟩
      simp [shows]

end explained

/-! ## The invariant of every run -/

/-- Every interleaving within the period refines the first come, first served
specification. -/
def threadInvariant [DecidableEq Tid] (autolock : Bool) :
    ThreadInvariant (program Tid autolock) init (withinPeriod takesTicket) (fifoLock Tid) observe
      (fun g : Ghost Tid => g.queue) where
  glob := fun trace g lock =>
    Explained trace g lock ∧ g.queue.arrivals.length < g.queue.releases + 2 ^ 32
  loc := fun g t l => g.At t (place l.pc)
  start := by
    intro s initial
    rcases initial with ⟨shared, threads⟩
    refine ⟨⟨⟨[], 0, 0⟩, fun _ => 0⟩, rfl, ⟨?_, by simp⟩, fun t => ?_⟩
    · rw [shared]
      exact ⟨FifoState.wellFormed_nil, rfl, rfl, fun _ => rfl⟩
    · rw [(threads t).1]
      intro i _
      simp
  step := by
    intro trace g s t action lock' l' event global locals stepped allowed
    rcases global with ⟨explained, few⟩
    have effect := step_effect (show SimpleTicket.step autolock t _ _ _ = _ from stepped)
    rcases ghost_step explained few (locals t) effect allowed.2 with
      ⟨g', steps, explained', own, others⟩
    refine ⟨g', steps, ⟨explained', ?_⟩, own, fun u different other => others u different _ other⟩
    have covers : forall u, ¬ g'.queue.Outside u ->
        u ∈ outstanding ⟨lock', Function.update s.thread t l'⟩ := by
      intro u inside
      by_cases same : u = t
      · subst same
        simpa [outstanding] using own.hasTicket inside
      · simpa [outstanding, same] using (others u same _ (locals u)).hasTicket inside
    exact explained'.wellFormed.length_lt covers allowed.1

/-! ## Mutual exclusion, ticket order and `trylock` -/

theorem Ghost.At.of_holdsLock {g : Ghost Tid} {t : Tid} {pc : SimpleTicketPc}
    (here : g.At t (place pc)) (holds : pc.holdsLock = true) : g.queue.Holding t := by
  cases pc <;> cases holds
  · exact here
  · exact here
  · exact here.1

theorem tickets_eq (trace : List (Tid × SimpleTicketEvent)) :
    (trace.flatMap observe).filterMap LockMove.arrival? = tickets trace := by
  apply filterMap_observe
  rintro ⟨t, event⟩
  cases event with
  | trylockReturned ret =>
      by_cases success : ret = iSuccess
      · subst success
        rfl
      · simp [takesTicket, observe, success]
  | _ => rfl

theorem acquisitions_eq (trace : List (Tid × SimpleTicketEvent)) :
    (trace.flatMap observe).filterMap LockMove.acquisition? = acquisitions trace := by
  apply filterMap_observe
  rintro ⟨t, event⟩
  cases event with
  | trylockReturned ret =>
      by_cases success : ret = iSuccess
      · subst success
        rfl
      · simp [grantsLock, observe, success]
  | _ => rfl

/-- A step inside `trylock` either reports success, and its thread then holds
the lock, or leaves both counters alone. -/
theorem step_of_inTrylock {autolock : Bool} {t : Tid} {action : SimpleTicketAction}
    {lock lock' : SimpleTicketLock} {l l' : SimpleTicketThread} {event : SimpleTicketEvent}
    (stepped : step autolock t action lock l = some (lock', l', event))
    (inside : l.pc.inTrylock = true) : event = .trylockReturned iSuccess ∨ lock' = lock := by
  rcases l with ⟨pc, page⟩
  cases pc <;> cases action <;> simp only [step, reduceCtorEq] at stepped
  case tryLoadNext.run =>
    cases stepped
    exact Or.inr rfl
  case tryLoadCur.run =>
    split at stepped <;> cases stepped <;> exact Or.inr rfl
  case tryCompareExchange.run =>
    split at stepped <;> cases stepped
    · exact Or.inl rfl
    · exact Or.inr rfl
  case tryCompareExchange.failSpuriously =>
    cases stepped
    exact Or.inr rfl
  all_goals cases inside

theorem place_of_success {lock lock' : SimpleTicketLock} {there there' : Place}
    (effect : StepEffect lock lock' there there' (.trylockReturned iSuccess)) :
    there' = .holding := by
  cases effect
  rfl

/-- Where a run has just reported the success of a `trylock`, its caller holds the lock. -/
theorem holding_of_trylock [DecidableEq Tid] {autolock : Bool}
    {guard : TransitionSystem.Guard (Machine Tid SimpleTicketLock SimpleTicketThread)
      (Tid × SimpleTicketEvent)}
    {trace : List (Tid × SimpleTicketEvent)}
    {s : Machine Tid SimpleTicketLock SimpleTicketThread}
    (run : (system autolock).Run guard trace s) {t : Tid}
    (last : trace.getLast? = some (t, .trylockReturned iSuccess)) :
    place (s.thread t).pc = .holding := by
  cases run with
  | start => cases last
  | step _ moved _ =>
      rw [List.getLast?_concat, Option.some.injEq] at last
      rcases Program.system_next moved with ⟨action, lock', l', stepped, rfl⟩
      subst last
      have effect := step_effect (show SimpleTicket.step autolock t _ _ _ = _ from stepped)
      simpa using place_of_success effect

theorem holdsLock_of_place {pc : SimpleTicketPc} (here : place pc = .holding) :
    pc.holdsLock = true := by
  cases pc <;> first | rfl | cases here

/-- In every run in which fewer than `2 ^ 32` tickets are outstanding, and
fewer are taken between the first load of a successful `trylock` and its
compare-exchange: at most one thread holds the lock; the lock is granted in
the order of the tickets; a `trylock` that has just succeeded leaves its caller
the unique holder; and no other step of `trylock` changes a counter. -/
theorem exclusive_in_ticket_order [DecidableEq Tid] (autolock : Bool)
    (trace : List (Tid × SimpleTicketEvent)) (s : Machine Tid SimpleTicketLock SimpleTicketThread)
    (run : (system autolock).Run (withinPeriod takesTicket) trace s) :
    (forall t u, (s.thread t).pc.holdsLock = true -> (s.thread u).pc.holdsLock = true -> t = u) ∧
      acquisitions trace <+: tickets trace ∧
      (forall t, trace.getLast? = some (t, .trylockReturned iSuccess) ->
        (s.thread t).pc.holdsLock = true ∧
          forall u, (s.thread u).pc.holdsLock = true -> u = t) ∧
      (forall t action lock' l' event,
        (program Tid autolock).step t action s.shared (s.thread t) = some (lock', l', event) ->
        (s.thread t).pc.inTrylock = true -> event ≠ .trylockReturned iSuccess ->
        lock' = s.shared) := by
  rcases (threadInvariant autolock).run run with ⟨g, specRun, _, locals⟩
  have exclusive : forall t u, (s.thread t).pc.holdsLock = true ->
      (s.thread u).pc.holdsLock = true -> t = u := by
    intro t u first second
    exact ((locals t).of_holdsLock first).unique ((locals u).of_holdsLock second)
  refine ⟨exclusive, ?_, ?_, ?_⟩
  · rw [← acquisitions_eq, ← tickets_eq]
    exact (FifoState.explains specRun).acquisitions_ordered
  · intro t last
    have holds := holdsLock_of_place (holding_of_trylock run last)
    exact ⟨holds, fun u other => exclusive u t other holds⟩
  · intro t action lock' l' event stepped inside noSuccess
    exact (step_of_inTrylock (show SimpleTicket.step autolock t _ _ _ = _ from stepped)
      inside).resolve_left noSuccess

theorem countSinceLoad_append_uncounted [DecidableEq Tid] {counted : SimpleTicketEvent -> Bool}
    {t : Tid} {trace labels : List (Tid × SimpleTicketEvent)}
    (uncounted : forall label, label ∈ labels -> counted label.2 = false)
    (zero : countSinceLoad counted t trace = 0) :
    countSinceLoad counted t (trace ++ labels) = 0 := by
  induction labels generalizing trace with
  | nil => simpa using zero
  | cons label labels inductionHypothesis =>
      rw [List.append_cons]
      apply inductionHypothesis fun _ member => uncounted _ (List.mem_cons_of_mem _ member)
      rw [countSinceLoad_append, uncounted label List.mem_cons_self, zero]
      simp

theorem countSinceLoad_append_le [DecidableEq Tid] (counted : SimpleTicketEvent -> Bool) (t : Tid)
    (trace : List (Tid × SimpleTicketEvent)) (label : Tid × SimpleTicketEvent) :
    countSinceLoad counted t (trace ++ [label]) ≤ countSinceLoad counted t trace + 1 := by
  rw [countSinceLoad_append]
  split
  · exact Nat.zero_le _
  · split <;> omega

theorem countSinceLoad_le [DecidableEq Tid] (counted : SimpleTicketEvent -> Bool) (t : Tid)
    (trace : List (Tid × SimpleTicketEvent)) : countSinceLoad counted t trace ≤ trace.length := by
  induction trace using List.reverseRecOn with
  | nil => exact Nat.le_refl 0
  | append_singleton trace label inductionHypothesis =>
      have oneMore := countSinceLoad_append_le counted t trace label
      rw [List.length_append, List.length_singleton]
      omega

/-- With two threads a short run stays within the period. -/
theorem withinPeriod_of_two {counted : SimpleTicketEvent -> Bool}
    {trace : List (Bool × SimpleTicketEvent)} (short : trace.length < 2 ^ 32)
    (s : Machine Bool SimpleTicketLock SimpleTicketThread) (label : Bool × SimpleTicketEvent)
    (s' : Machine Bool SimpleTicketLock SimpleTicketThread) :
    withinPeriod counted trace s label s' := by
  refine ⟨?_, fun _ => (countSinceLoad_le counted label.1 trace).trans_lt short⟩
  exact encard_lt_of_card (by decide) (outstanding s')

/-- One thread gets the lock by `trylock`, the other waits for it with its page armed. -/
def trylockThenLock : List (Bool × SimpleTicketAction) :=
  [(false, .callTrylock), (false, .run), (false, .run), (true, .callLock), (false, .failSpuriously),
    (false, .callTrylock), (false, .run), (false, .run), (false, .run), (true, .run), (true, .run),
    (true, .run), (true, .run), (true, .run), (true, .run)]

theorem exclusive_in_ticket_order_trylockThenLock :
    let result := (program Bool true).play trylockThenLock (fresh Bool)
    (forall t u, (result.1.thread t).pc.holdsLock = true ->
      (result.1.thread u).pc.holdsLock = true -> t = u) ∧
      acquisitions result.2 <+: tickets result.2 ∧
      (forall t, result.2.getLast? = some (t, .trylockReturned iSuccess) ->
        (result.1.thread t).pc.holdsLock = true ∧
          forall u, (result.1.thread u).pc.holdsLock = true -> u = t) ∧
      (forall t action lock' l' event,
        (program Bool true).step t action result.1.shared (result.1.thread t) =
          some (lock', l', event) ->
        (result.1.thread t).pc.inTrylock = true -> event ≠ .trylockReturned iSuccess ->
        lock' = result.1.shared) :=
  exclusive_in_ticket_order true _ _
    ((Program.run_play fresh_init trylockThenLock (by decide)).restrict
      fun before s label s' less => withinPeriod_of_two (less.trans_le (by decide)) s label s')

/-! ## A `trylock` during which `next_count` wraps around

Counting the grants during a `trylock` does not help: while few tickets are
granted, so many may be taken that `next_count` comes back to the value that
`trylock` has read. -/

section wrapsAround

variable {counted : SimpleTicketEvent -> Bool} {autolock : Bool}

/-- A step of a thread of the set gives no ticket to a thread outside it. -/
theorem outstanding_next [DecidableEq Tid] {inside : Set Tid} {label : Tid × SimpleTicketEvent}
    {s s' : Machine Tid SimpleTicketLock SimpleTicketThread}
    (moved : (system autolock).next s label s') (own : label.1 ∈ inside)
    (contained : outstanding s ⊆ inside) : outstanding s' ⊆ inside := by
  rcases Program.system_next moved with ⟨action, lock', l', _, rfl⟩
  intro u member
  by_cases moves : u = label.1
  · exact moves ▸ own
  · apply contained
    simpa [outstanding, moves] using member

/-- Steps of the threads of a set with fewer than `2 ^ 32` elements stay within
the period as long as every `trylock` does. -/
theorem run_exec_within [DecidableEq Tid] {inside : Set Tid} (small : inside.encard < 2 ^ 32)
    {schedule : List (Tid × SimpleTicketAction)}
    (scheduled : forall move, move ∈ schedule -> move.1 ∈ inside)
    {trace labels : List (Tid × SimpleTicketEvent)}
    {s s' : Machine Tid SimpleTicketLock SimpleTicketThread}
    (run : (system autolock).Run (withinPeriod counted) trace s)
    (few : forall t, countSinceLoad counted t trace + schedule.length < 2 ^ 32)
    (contained : outstanding s ⊆ inside)
    (played : (program Tid autolock).exec schedule s = some (s', labels)) :
    (system autolock).Run (withinPeriod counted) (trace ++ labels) s' ∧ outstanding s' ⊆ inside ∧
      forall t, countSinceLoad counted t (trace ++ labels) ≤
        countSinceLoad counted t trace + schedule.length := by
  induction schedule generalizing trace s labels with
  | nil =>
      rcases Prod.mk.inj (Option.some.inj played) with ⟨rfl, rfl⟩
      rw [List.append_nil]
      exact ⟨run, contained, fun _ => Nat.le_refl _⟩
  | cons head schedule inductionHypothesis =>
      rcases head with ⟨t, action⟩
      simp only [Program.exec, Option.bind_eq_bind, Option.bind_eq_some_iff, Option.pure_def,
        Option.some.injEq, Prod.mk.injEq] at played
      rcases played with ⟨⟨middle, event⟩, first, ⟨last, rest⟩, played, rfl, rfl⟩
      have moved : (system autolock).next s (t, event) middle := ⟨action, first⟩
      have contained' := outstanding_next moved (scheduled (t, action) List.mem_cons_self) contained
      have within : countSinceLoad counted t trace < 2 ^ 32 := by
        have := few t
        omega
      have run' := run.step moved
        ⟨(Set.encard_le_encard contained').trans_lt small, fun _ => within⟩
      have few' : forall u, countSinceLoad counted u (trace ++ [(t, event)]) + schedule.length <
          2 ^ 32 := by
        intro u
        have before := few u
        have oneMore := countSinceLoad_append_le counted u trace (t, event)
        rw [List.length_cons] at before
        omega
      rcases inductionHypothesis (fun move member => scheduled move (List.mem_cons_of_mem _ member))
        run' few' contained' played with ⟨run'', contained'', counts''⟩
      rw [List.append_assoc, List.singleton_append] at run'' counts''
      refine ⟨run'', contained'', fun u => ?_⟩
      have oneMore := countSinceLoad_append_le counted u trace (t, event)
      have others := counts'' u
      rw [List.length_cons]
      dsimp only
      omega

/-- Thread 0 is about to compare-exchange with the value zero; the threads 1
to `k` have taken the tickets 0 to `k - 1`. -/
def crowded (k : Nat) : Machine Nat SimpleTicketLock SimpleTicketThread where
  shared := ⟨0, wrap k⟩
  thread := fun t =>
    ⟨if t = 0 then .tryCompareExchange 0
      else if t ≤ k then .firstLoad (wrap (t - 1)) else .outside, ⟨none, 0, 0⟩⟩

theorem outstanding_crowded (k : Nat) : outstanding (crowded k) = Set.Icc 1 k := by
  ext t
  show SimpleTicketPc.hasTicket (if t = 0 then _ else if t ≤ k then _ else _) = true <->
    1 ≤ t ∧ t ≤ k
  by_cases zero : t = 0
  · rw [if_pos zero]
    exact iff_of_false nofun (by omega)
  · rw [if_neg zero]
    by_cases inside : t ≤ k
    · rw [if_pos inside]
      exact iff_of_true rfl ⟨Nat.pos_of_ne_zero zero, inside⟩
    · rw [if_neg inside]
      exact iff_of_false nofun fun within => inside within.2

theorem encard_Icc (a b : Nat) : (Set.Icc a b).encard = (b + 1 - a : Nat) := by
  rw [← Finset.coe_Icc, Set.encard_coe_eq_coe_finsetCard, Nat.card_Icc]

/-- The crowd gathers while `trylock` of thread 0 is about to compare-exchange. -/
theorem run_crowded (k : Nat) (few : k < 2 ^ 32) :
    exists trace, (system true).Run (withinPeriod grantsLock) trace (crowded k) ∧
      forall t, countSinceLoad grantsLock t trace = 0 := by
  induction k with
  | zero =>
      have noneOutstanding : outstanding (fresh Nat) ⊆ {0} := by
        intro t member
        cases member
      have played : (program Nat true).exec [(0, .callTrylock), (0, .run), (0, .run)] (fresh Nat) =
          some (crowded 0, [(0, .internal), (0, .trylockLoaded), (0, .internal)]) := by
        refine congrArg (fun threads => some (Machine.mk _ threads, _)) (funext fun t => ?_)
        by_cases zero : t = 0 <;> simp [fresh, zero]
      have small : ({0} : Set Nat).encard < 2 ^ 32 := by
        rw [Set.encard_singleton]
        exact_mod_cast (by decide : 1 < 2 ^ 32)
      rcases run_exec_within small (by simp) (.start fresh_init) (by simp [countSinceLoad])
        noneOutstanding played with ⟨run, _, _⟩
      refine ⟨_, run, fun t => ?_⟩
      simp [countSinceLoad, grantsLock]
  | succ k inductionHypothesis =>
      rcases inductionHypothesis (by omega) with ⟨trace, run, counts⟩
      have played : (program Nat true).exec [(k + 1, .callLock), (k + 1, .run)] (crowded k) =
          some (crowded (k + 1), [(k + 1, .internal), (k + 1, .tookTicket)]) := by
        simp only [Program.exec, Program.next, program, SimpleTicket.step, crowded,
          Nat.add_one_ne_zero, Nat.not_succ_le_self, if_false, Option.map_some, Option.bind_eq_bind,
          Option.bind_some, Function.update_self, Function.update_idem, Option.pure_def, wrap_succ,
          Nat.add_sub_cancel]
        refine congrArg (fun threads => some (Machine.mk _ threads, _)) (funext fun t => ?_)
        by_cases last : t = k + 1
        · simp [last]
        · have : t ≤ k + 1 <-> t ≤ k := by omega
          simp [last, this]
      have small : (Set.Icc 1 (k + 1)).encard < 2 ^ 32 := by
        rw [encard_Icc]
        exact_mod_cast few
      rcases run_exec_within small (by simp) run (by simp [counts]) (by
        rw [outstanding_crowded]; exact Set.Icc_subset_Icc_right (by omega)) played with ⟨run', _, _⟩
      refine ⟨_, run', fun t => ?_⟩
      exact countSinceLoad_append_uncounted (by simp [grantsLock]) (counts t)

/-- The first two threads of the crowd are served. -/
def serveTwo : List (Nat × SimpleTicketAction) :=
  [(1, .run), (1, .callUnlock), (1, .run), (1, .run), (2, .run), (2, .callUnlock), (2, .run),
    (2, .run)]

/-- The third holds the lock, one more ticket is taken, and `trylock` of thread 0 succeeds. -/
def overtake : List (Nat × SimpleTicketAction) :=
  [(3, .run), (4294967296, .callLock), (4294967296, .run), (0, .run)]

/-- Fewer than `2 ^ 32` tickets are ever outstanding and three are granted
during the `trylock`, yet two threads hold the lock in the end. -/
theorem shared_when_next_count_wraps :
    exists trace, exists s : Machine Nat SimpleTicketLock SimpleTicketThread,
      (system true).Run (withinPeriod grantsLock) trace s ∧
        countSinceLoad grantsLock 0 trace < 2 ^ 32 ∧
        (s.thread 0).pc.holdsLock = true ∧ (s.thread 3).pc.holdsLock = true := by
  rcases run_crowded 4294967295 (by decide) with ⟨trace, run, counts⟩
  -- The crowd is there, and two of it leave.
  have crowd : (Set.Icc 1 4294967295).encard < 2 ^ 32 := by
    rw [encard_Icc]
    exact_mod_cast (by decide : 4294967295 + 1 - 1 < 2 ^ 32)
  rcases Option.isSome_iff_exists.mp
    (show ((program Nat true).exec serveTwo (crowded 4294967295)).isSome = true by decide) with
    ⟨⟨served, labels⟩, playedServe⟩
  rcases run_exec_within crowd (by simp [serveTwo]) run (by simp [counts, serveTwo])
    (outstanding_crowded _).subset playedServe with ⟨runServed, containedServed, countsServed⟩
  have servedEq : served = ((program Nat true).play serveTwo (crowded 4294967295)).1 := by
    rw [Program.play, playedServe]
    rfl
  -- The rest of the crowd, one newcomer and thread 0 are fewer than a period.
  have rest : outstanding served ⊆ insert 0 (Set.Icc 3 4294967296) := by
    intro t member
    have bounds := containedServed member
    have notFirst : t ≠ 1 := by
      rintro rfl
      rw [servedEq] at member
      exact absurd member (by simp only [outstanding, Set.mem_ofPred_eq]; decide)
    have notSecond : t ≠ 2 := by
      rintro rfl
      rw [servedEq] at member
      exact absurd member (by simp only [outstanding, Set.mem_ofPred_eq]; decide)
    simp only [Set.mem_insert_iff, Set.mem_Icc] at bounds ⊢
    omega
  have few : (insert 0 (Set.Icc 3 4294967296) : Set Nat).encard < 2 ^ 32 := by
    refine (Set.encard_insert_le _ _).trans_lt ?_
    rw [encard_Icc]
    exact_mod_cast (by decide : 4294967296 + 1 - 3 + 1 < 2 ^ 32)
  rcases Option.isSome_iff_exists.mp
    (show ((program Nat true).exec overtake
      ((program Nat true).play serveTwo (crowded 4294967295)).1).isSome = true by decide) with
    ⟨⟨overtaken, labels'⟩, playedOvertake⟩
  have overtakenEq : overtaken = ((program Nat true).play overtake
      ((program Nat true).play serveTwo (crowded 4294967295)).1).1 := by
    rw [Program.play, playedOvertake]
    rfl
  rw [← servedEq] at playedOvertake
  have countsServed' : forall t, countSinceLoad grantsLock t (trace ++ labels) ≤ 8 := by
    intro t
    simpa [counts, serveTwo] using countsServed t
  rcases run_exec_within few (by simp [overtake]) runServed (fun t => by
      have := countsServed' t
      simp only [overtake, List.length_cons, List.length_nil]
      omega) rest playedOvertake with ⟨runOvertaken, _, countsOvertaken⟩
  refine ⟨_, overtaken, runOvertaken, ?_, ?_, ?_⟩
  · have := countsOvertaken 0
    have := countsServed' 0
    simp only [overtake, List.length_cons, List.length_nil] at *
    omega
  · rw [overtakenEq]
    decide
  · rw [overtakenEq]
    decide

end wrapsAround

end SimpleTicket

end UserLocks
end Autolock
