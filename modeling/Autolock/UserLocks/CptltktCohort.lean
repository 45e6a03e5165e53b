import Autolock.Concurrency.Cohort
import Autolock.UserLocks.CptltktSteps

namespace Autolock
namespace UserLocks

open Concurrency

/-!
# The cohort lock refines abstract cohort locking, step by step

The counters of the lock show the numbers of an abstract cohort lock.  The
outer ticket of the thread in the critical section is known from
`owner_req_num` of its socket, also when it was another thread of the socket
that took it.  A waiter for the outer lock cannot mistake an old grant for its
own, because tickets in use are at most one more than there are sockets and
each slot is written again within one period of the counter.  This is where
the number of sockets has to be at most `2 ^ 31`.
-/

namespace Cptltkt

variable {Tid : Type} {N : Nat}

/-! ## Slots of the grants array -/

/-- Within the number of sockets before a ticket, or at the end of the
previous period, there is a ticket with the same slot. -/
theorem slotOf_reused [NeZero N] (small : N ≤ 2 ^ 31) {turn j : Nat} (near : j ≤ turn + N)
    (later : turn < j) (wrapped : 2 ^ 32 ≤ j) :
    exists m, m ≤ turn ∧ j < m + 2 ^ 32 ∧ slotOf N m = slotOf N j := by
  have positive : 0 < N := Nat.pos_of_neZero N
  by_cases fits : N ≤ j % 2 ^ 32
  · refine ⟨j - N, by omega, by omega, slotOf_eq_iff.mpr ?_⟩
    have back : (j - N) % 2 ^ 32 + N = j % 2 ^ 32 := by omega
    rw [← back, Nat.add_mod_right]
  · refine ⟨j - 2 ^ 32 + N, by omega, by omega, slotOf_eq_iff.mpr ?_⟩
    have ahead : (j - 2 ^ 32 + N) % 2 ^ 32 = j % 2 ^ 32 + N := by omega
    rw [ahead, Nat.add_mod_right]

/-! ## Ghost state -/

/-- The abstract cohort lock, and the two plain variables of the lock. -/
structure Ghost (N : Nat) (Tid : Type) where
  cohort : CohortState (Fin N) Tid
  curPsl : Option (Fin N)
  ownerReqNum : Fin N -> UInt32

namespace Ghost

def withCohort (g : Ghost N Tid) (c : CohortState (Fin N) Tid) : Ghost N Tid :=
  { g with cohort := c }

variable (g : Ghost N Tid) (t : Tid) (psl : Fin N)

/-- `t` holds the inner lock of the socket, for which nobody else acts. -/
structure Alone : Prop where
  only : g.cohort.Only t psl
  holds : (g.cohort.inner psl).Holding t
  notPending : g.cohort.pending psl = none

/-- `t` has the outer lock in the way that the token says, and its ticket is registered. -/
structure Owns (token : OuterToken (Fin N) Tid) : Prop where
  alone : g.Alone t psl
  token : g.cohort.token = token
  curPsl : g.curPsl = some psl
  ownerReqNum : g.ownerReqNum psl = wrap g.cohort.turn

/-- The value that releases the inner lock. -/
def nextGrant : UInt32 := wrap ((g.cohort.inner psl).releases + 1)

/-- The place of a thread in terms of the cohort lock. -/
def At : Place N -> Prop
  | .apart => forall s, (g.cohort.inner s).Outside t
  | .waiting s reqNum =>
      g.cohort.Only t s ∧ exists i, (g.cohort.inner s).Waiting t i ∧ reqNum = wrap i
  | .first s => g.Alone t s ∧ forall v, g.cohort.token ≠ .passing s v
  | .offered s => g.Alone t s ∧ g.cohort.token = .offered s
  | .interWaiting s reqNum =>
      g.cohort.Only t s ∧ (g.cohort.inner s).Holding t ∧
        exists j, g.cohort.pending s = some j ∧ reqNum = wrap j
  | .entering s reqNum =>
      g.Alone t s ∧ g.cohort.token = .entering t ∧ reqNum = wrap g.cohort.turn
  | .registering s reqNum =>
      g.Alone t s ∧ g.cohort.token = .entering t ∧ reqNum = wrap g.cohort.turn ∧
        g.curPsl = some s
  | .entered s => g.Owns t s (.entering t)
  | .holding => exists s, g.Owns t s (.held t)
  | .unlocking s => g.Owns t s (.held t)
  | .deciding s next => g.Owns t s (.held t) ∧ next = g.nextGrant s
  | .passing s next => g.Owns t s (.passing s t) ∧ next = g.nextGrant s
  | .releasing s next reqNum =>
      g.Owns t s (.held t) ∧ next = g.nextGrant s ∧ reqNum = wrap (g.cohort.turn + 1)
  | .grantLeft s next =>
      g.Alone t s ∧ (forall v, g.cohort.token ≠ .passing s v) ∧ next = g.nextGrant s
  | .grantsLeft reqNum =>
      (forall s, (g.cohort.inner s).Outside t) ∧ g.cohort.token = .leaving t ∧
        reqNum = wrap (g.cohort.turn + 1)

/-- What `u` can tell is still the case. -/
structure Keeps (u : Tid) (g' : Ghost N Tid) : Prop where
  cohort : g.cohort.Keeps u g'.cohort
  registers : g.cohort.token.owner? = some u ->
    g'.curPsl = g.curPsl ∧ g'.ownerReqNum = g.ownerReqNum

variable {g} {t} {psl} {g' : Ghost N Tid} {u : Tid}

theorem Keeps.of_cohort {c : CohortState (Fin N) Tid} (keeps : g.cohort.Keeps u c) :
    g.Keeps u (g.withCohort c) :=
  ⟨keeps, fun _ => ⟨rfl, rfl⟩⟩

theorem Alone.keep (alone : g.Alone u psl) (keeps : g.Keeps u g') : g'.Alone u psl where
  only := alone.only.keep keeps.cohort
  holds := ((keeps.cohort.inner psl).holding alone.holds).1
  notPending := (keeps.cohort.pending psl alone.holds).trans alone.notPending

theorem Alone.keep_nextGrant (alone : g.Alone u psl) (keeps : g.Keeps u g') :
    g'.nextGrant psl = g.nextGrant psl := by
  rw [nextGrant, nextGrant, ((keeps.cohort.inner psl).holding alone.holds).2]

theorem Owns.keep {token : OuterToken (Fin N) Tid} (owns : g.Owns u psl token)
    (owner : token.owner? = some u) (keeps : g.Keeps u g') : g'.Owns u psl token := by
  have mine : g.cohort.token.owner? = some u := owns.token.symm ▸ owner
  rcases keeps.cohort.owner mine with ⟨sameToken, sameTurn⟩
  rcases keeps.registers mine with ⟨sameCurPsl, sameOwnerReqNum⟩
  exact ⟨owns.alone.keep keeps, sameToken.trans owns.token, sameCurPsl.trans owns.curPsl,
    by rw [sameOwnerReqNum, sameTurn, owns.ownerReqNum]⟩

/-- A thread stays where it is while it can tell no difference. -/
theorem At.keep {there : Place N} (here : g.At u there) (keeps : g.Keeps u g') :
    g'.At u there := by
  cases there with
  | apart => exact fun s => (keeps.cohort.inner s).outside (here s)
  | waiting s reqNum =>
      rcases here with ⟨only, i, waits, shows⟩
      exact ⟨only.keep keeps.cohort, i, (keeps.cohort.inner s).waiting i waits, shows⟩
  | first s =>
      exact ⟨here.1.keep keeps, keeps.cohort.notPassing s here.1.holds here.2⟩
  | offered s => exact ⟨here.1.keep keeps, keeps.cohort.offered s here.1.holds here.2⟩
  | interWaiting s reqNum =>
      rcases here with ⟨only, holds, j, pending, shows⟩
      exact ⟨only.keep keeps.cohort, ((keeps.cohort.inner s).holding holds).1, j,
        (keeps.cohort.pending s holds).trans pending, shows⟩
  | entering s reqNum =>
      rcases here with ⟨alone, entering, shows⟩
      have same := keeps.cohort.owner (by rw [entering]; rfl)
      exact ⟨alone.keep keeps, same.1.trans entering, by rw [same.2, shows]⟩
  | registering s reqNum =>
      rcases here with ⟨alone, entering, shows, current⟩
      have mine : g.cohort.token.owner? = some u := by rw [entering]; rfl
      have same := keeps.cohort.owner mine
      exact ⟨alone.keep keeps, same.1.trans entering, by rw [same.2, shows],
        (keeps.registers mine).1.trans current⟩
  | entered s => exact Owns.keep here rfl keeps
  | holding =>
      rcases here with ⟨s, owns⟩
      exact ⟨s, owns.keep rfl keeps⟩
  | unlocking s => exact Owns.keep here rfl keeps
  | deciding s next =>
      exact ⟨here.1.keep rfl keeps, here.2.trans (here.1.alone.keep_nextGrant keeps).symm⟩
  | passing s next =>
      exact ⟨here.1.keep rfl keeps, here.2.trans (here.1.alone.keep_nextGrant keeps).symm⟩
  | releasing s next reqNum =>
      rcases here with ⟨owns, shows, shows'⟩
      have same := keeps.cohort.owner (by rw [owns.token]; rfl)
      exact ⟨owns.keep rfl keeps, shows.trans (owns.alone.keep_nextGrant keeps).symm,
        by rw [same.2, shows']⟩
  | grantLeft s next =>
      rcases here with ⟨alone, notPassing, shows⟩
      exact ⟨alone.keep keeps, keeps.cohort.notPassing s alone.holds notPassing,
        shows.trans (alone.keep_nextGrant keeps).symm⟩
  | grantsLeft reqNum =>
      rcases here with ⟨outside, leaving, shows⟩
      have same := keeps.cohort.owner (by rw [leaving]; rfl)
      exact ⟨fun s => (keeps.cohort.inner s).outside (outside s), same.1.trans leaving,
        by rw [same.2, shows]⟩

/-- The socket at which a thread has a ticket is that of its place. -/
theorem At.socket {there : Place N} (here : g.At t there)
    (ticket : ¬(g.cohort.inner psl).Outside t) : there.socket g.curPsl = some psl := by
  have isHere : forall {s}, g.cohort.Only t s -> some s = some psl := by
    intro s only
    by_contra different
    exact ticket (only psl fun same => different (congrArg some same.symm))
  cases there with
  | apart => exact absurd (here psl) ticket
  | waiting s reqNum => exact isHere here.1
  | first s | offered s => exact isHere here.1.only
  | interWaiting s reqNum => exact isHere here.1
  | entering s reqNum | registering s reqNum => exact isHere here.1.only
  | entered s | unlocking s => exact isHere (Owns.alone here).only
  | holding =>
      rcases here with ⟨s, owns⟩
      exact owns.curPsl.trans (isHere owns.alone.only)
  | deciding s next | passing s next => exact isHere here.1.alone.only
  | releasing s next reqNum => exact isHere here.1.alone.only
  | grantLeft s next => exact isHere here.1.only
  | grantsLeft reqNum => exact absurd (here.1 psl) ticket

end Ghost

/-! ## The lock shows the ghost state -/

/-- How the ghost state explains the lock. -/
structure Explained [NeZero N] (g : Ghost N Tid) (lock : CptltktLock N) : Prop where
  wellFormed : g.cohort.WellFormed
  requests : forall s, lock.requests s = wrap (g.cohort.inner s).arrivals.length
  grant : forall s, lock.grant s = wrap (g.cohort.inner s).releases
  request : lock.request = wrap g.cohort.requests
  grants : Announced (slotOf N) g.cohort.turn lock.grants
  socketGrant : forall s,
    lock.socketGrant s ≠ cptltktDoesntHaveSocket <-> g.cohort.token.socket? = some s
  curPsl : lock.curPsl = g.curPsl
  ownerReqNum : lock.ownerReqNum = g.ownerReqNum
  /-- The socket that has been left the outer lock has the registered ticket. -/
  left : forall s, g.cohort.token.socket? = some s ->
    g.curPsl = some s ∧ g.ownerReqNum s = wrap g.cohort.turn

/-- Fewer than `2 ^ 32` tickets are outstanding on every inner lock. -/
def Ghost.Window (g : Ghost N Tid) : Prop :=
  forall s, (g.cohort.inner s).arrivals.length < (g.cohort.inner s).releases + 2 ^ 32

section shown

variable {Index Value Entry : Type} [DecidableEq Index] {table : Index -> Value}
  {entries : Index -> Entry} (shown : Entry -> Value)

/-- A table that shows the entries of another still does after both were updated. -/
theorem update_shows (shows : forall i, table i = shown (entries i)) {i : Index} {value : Value}
    {entry : Entry} (here : value = shown entry) (j : Index) :
    Function.update table i value j = shown (Function.update entries i entry j) := by
  by_cases same : j = i
  · subst same
    rw [Function.update_self, Function.update_self, here]
  · rw [Function.update_of_ne same, Function.update_of_ne same, shows]

/-- An update that the table does not show. -/
theorem shows_update (shows : forall i, table i = shown (entries i)) {i : Index} {entry : Entry}
    (unseen : shown (entries i) = shown entry) (j : Index) :
    table j = shown (Function.update entries i entry j) := by
  have updated : Function.update table i (table i) j = shown (Function.update entries i entry j) :=
    update_shows shown shows ((shows i).trans unseen) j
  rwa [Function.update_eq_self] at updated

end shown

/-- What the two counters of an inner lock show. -/
def shownRequests (q : FifoState Tid) : UInt32 := wrap q.arrivals.length
def shownGrant (q : FifoState Tid) : UInt32 := wrap q.releases

namespace Explained

variable [NeZero N] {g : Ghost N Tid} {lock : CptltktLock N} {t : Tid} {s : Fin N}

/-- An inner lock moves, with the counters that show it. -/
theorem withInner (explained : Explained g lock) {q : FifoState Tid}
    (wellFormed : (g.cohort.withInner s q).WellFormed) {requests grant : Fin N -> UInt32}
    (showsRequests : forall s',
      requests s' = wrap ((g.cohort.withInner s q).inner s').arrivals.length)
    (showsGrant : forall s', grant s' = wrap ((g.cohort.withInner s q).inner s').releases) :
    Explained (g.withCohort (g.cohort.withInner s q))
      { lock with requests := requests, grant := grant } :=
  ⟨wellFormed, showsRequests, showsGrant, explained.request, explained.grants,
    explained.socketGrant, explained.curPsl, explained.ownerReqNum, explained.left⟩

theorem arrive (explained : Explained g lock) (outside : (g.cohort.inner s).Outside t) :
    Explained (g.withCohort (g.cohort.withInner s ((g.cohort.inner s).arrive t)))
      { lock with requests := Function.update lock.requests s (lock.requests s + 1) } := by
  have next : lock.requests s + 1 = shownRequests ((g.cohort.inner s).arrive t) := by
    rw [explained.requests, shownRequests, FifoState.arrive_length, wrap_succ]
  exact explained.withInner (explained.wellFormed.arrive outside)
    (update_shows shownRequests explained.requests next)
    (shows_update shownGrant explained.grant rfl)

theorem acquire (explained : Explained g lock)
    (free : (g.cohort.inner s).grants = (g.cohort.inner s).releases)
    (first : (g.cohort.inner s).arrivals[(g.cohort.inner s).grants]? = some t) :
    Explained (g.withCohort (g.cohort.withInner s (g.cohort.inner s).acquire)) lock :=
  explained.withInner (explained.wellFormed.acquire free first)
    (shows_update shownRequests explained.requests rfl)
    (shows_update shownGrant explained.grant rfl)

theorem release (explained : Explained g lock) (alone : g.Alone t s)
    (notPassing : forall v, g.cohort.token ≠ .passing s v) :
    Explained (g.withCohort (g.cohort.withInner s (g.cohort.inner s).release))
      { lock with grant := Function.update lock.grant s (g.nextGrant s) } :=
  explained.withInner
    (explained.wellFormed.release alone.holds alone.notPending notPassing)
    (shows_update shownRequests explained.requests rfl)
    (update_shows shownGrant explained.grant rfl)

/-- The token moves, with the flags that show it. -/
theorem withToken (explained : Explained g lock) (notFree : g.cohort.token ≠ .free)
    {token : OuterToken (Fin N) Tid}
    (passes : forall s v, token = .passing s v -> (g.cohort.inner s).Holding v)
    {socketGrant : Fin N -> UInt32}
    (shows : forall s, socketGrant s ≠ cptltktDoesntHaveSocket <-> token.socket? = some s)
    (left : forall s, token.socket? = some s ->
      g.curPsl = some s ∧ g.ownerReqNum s = wrap g.cohort.turn) :
    Explained (g.withCohort (g.cohort.withToken token))
      { lock with socketGrant := socketGrant } :=
  ⟨explained.wellFormed.withToken notFree passes, explained.requests, explained.grant,
    explained.request, explained.grants, shows, explained.curPsl, explained.ownerReqNum, left⟩

/-- A move of the token that the flags do not show. -/
theorem withToken_same (explained : Explained g lock) (notFree : g.cohort.token ≠ .free)
    {token : OuterToken (Fin N) Tid}
    (passes : forall s v, token = .passing s v -> (g.cohort.inner s).Holding v)
    (same : token.socket? = g.cohort.token.socket?) :
    Explained (g.withCohort (g.cohort.withToken token)) lock :=
  explained.withToken notFree passes (same ▸ explained.socketGrant) (same ▸ explained.left)

theorem takeInterTicket (explained : Explained g lock) (alone : g.Alone t s) :
    Explained (g.withCohort (g.cohort.request s)) { lock with request := lock.request + 1 } :=
  ⟨explained.wellFormed.request alone.holds alone.notPending, explained.requests, explained.grant,
    by rw [explained.request]; exact (wrap_succ _).symm, explained.grants, explained.socketGrant,
    explained.curPsl, explained.ownerReqNum, explained.left⟩

/-- The ticket of the socket is current: its thread has the outer lock. -/
theorem enter (explained : Explained g lock) (current : g.cohort.pending s = some g.cohort.turn) :
    Explained (g.withCohort (g.cohort.enter s t)) lock := by
  have free := explained.wellFormed.free_of_pending current
  have unmarked : g.cohort.token.socket? = none := by
    rw [free]
    rfl
  refine ⟨explained.wellFormed.enter current, explained.requests, explained.grant,
    explained.request, explained.grants, fun s' => ?_, explained.curPsl, explained.ownerReqNum,
    fun _ marked => nomatch marked⟩
  rw [explained.socketGrant s', unmarked]
  rfl

/-- The current outer ticket is released, and the next one announced. -/
theorem releaseOuter (explained : Explained g lock) (mine : g.cohort.token.owner? = some t)
    (unmarked : g.cohort.token.socket? = none) {reqNum : UInt32}
    (shows : reqNum = wrap (g.cohort.turn + 1)) :
    Explained (g.withCohort g.cohort.releaseOuter)
      { lock with grants := Function.update lock.grants (reqIdx reqNum) reqNum } := by
  subst shows
  have notFree : g.cohort.token ≠ .free := by
    intro free
    rw [free] at mine
    cases mine
  refine ⟨explained.wellFormed.releaseOuter notFree, explained.requests, explained.grant,
    explained.request, explained.grants.advance, fun s' => ?_, explained.curPsl,
    explained.ownerReqNum, fun _ marked => nomatch marked⟩
  rw [explained.socketGrant s', unmarked]
  rfl

/-- A waiter that finds its ticket granted is the first at its inner lock. -/
theorem first (explained : Explained g lock) (window : g.Window) {i : Nat}
    (waits : (g.cohort.inner s).Waiting t i) (granted : lock.grant s = wrap i) :
    (g.cohort.inner s).grants = (g.cohort.inner s).releases ∧
      (g.cohort.inner s).arrivals[(g.cohort.inner s).grants]? = some t := by
  have bounded := waits.hasTicket.lt_length
  have isFirst : (g.cohort.inner s).releases = i :=
    wrap_injective waits.2.1 (bounded.trans (window s)) ((explained.grant s).symm.trans granted)
  have free : (g.cohort.inner s).grants = (g.cohort.inner s).releases :=
    le_antisymm (isFirst ▸ waits.2.2) (explained.wellFormed.inner s).releases_le_grants
  exact ⟨free, by rw [free, isFirst]; exact waits.1⟩

/-- A socket that finds its ticket granted has the current one. -/
theorem current (explained : Explained g lock) (small : N ≤ 2 ^ 31) {j : Nat}
    (pending : g.cohort.pending s = some j) (granted : lock.grants (slotOf N j) = wrap j) :
    j = g.cohort.turn := by
  rcases explained.wellFormed.pending_range s j pending with ⟨later, taken⟩
  have few := explained.wellFormed.requests_le
  rw [Fintype.card_fin] at few
  have announced : j ≤ g.cohort.turn :=
    explained.grants.le_of_shown (slotOf_reused small (by omega)) granted
  exact le_antisymm announced later

/-- A socket that finds its flag set has been offered the outer lock. -/
theorem offered (explained : Explained g lock)
    (notPassing : forall v, g.cohort.token ≠ .passing s v)
    (flag : lock.socketGrant s ≠ cptltktDoesntHaveSocket) : g.cohort.token = .offered s := by
  have marked := (explained.socketGrant s).mp flag
  cases token : g.cohort.token with
  | passing s' v =>
      rw [token] at marked
      cases marked
      exact absurd token (notPassing v)
  | offered s' =>
      rw [token] at marked
      cases marked
      rfl
  | free | entering | held | leaving =>
      rw [token] at marked
      cases marked

/-- The flag of one socket follows the token. -/
theorem flag_update {token : OuterToken (Fin N) Tid} {value : UInt32}
    (explained : Explained g lock)
    (here : value ≠ cptltktDoesntHaveSocket <-> token.socket? = some s)
    (elsewhere : forall s', s' ≠ s ->
      (token.socket? = some s' <-> g.cohort.token.socket? = some s')) (s' : Fin N) :
    Function.update lock.socketGrant s value s' ≠ cptltktDoesntHaveSocket <->
      token.socket? = some s' := by
  by_cases same : s' = s
  · subst same
    rwa [Function.update_self]
  · rw [Function.update_of_ne same, explained.socketGrant s', elsewhere s' same]

/-- The holder of the inner lock takes the outer lock that its socket was offered. -/
theorem accept (explained : Explained g lock) (alone : g.Alone t s)
    (offered : g.cohort.token = .offered s) {token : OuterToken (Fin N) Tid}
    (unmarked : token.socket? = none) :
    Explained (g.withCohort (g.cohort.withToken token))
        { lock with
          socketGrant := Function.update lock.socketGrant s cptltktDoesntHaveSocket } ∧
      Ghost.Owns (g.withCohort (g.cohort.withToken token)) t s token := by
  have marked : g.cohort.token.socket? = some s := by
    rw [offered]
    rfl
  rcases explained.left s marked with ⟨current, registered⟩
  refine ⟨explained.withToken ?_ ?_ (explained.flag_update ?_ ?_) ?_, ?_⟩
  · rw [offered]
    exact nofun
  · rintro s' v rfl
    cases unmarked
  · rw [unmarked]
    exact iff_of_false (fun differs => differs rfl) nofun
  · intro s' different
    rw [unmarked, marked, Option.some.injEq]
    exact iff_of_false nofun (Ne.symm different)
  · intro s' isMarked
    rw [unmarked] at isMarked
    cases isMarked
  · exact ⟨⟨alone.only, alone.holds, alone.notPending⟩, rfl, current, registered⟩

/-- The thread in the critical section marks its socket before it passes the outer lock on. -/
theorem mark (explained : Explained g lock) (owns : g.Owns t s (.held t)) :
    Explained (g.withCohort (g.cohort.withToken (.passing s t)))
      { lock with socketGrant := Function.update lock.socketGrant s cptltktHasSocket } := by
  have notFree : g.cohort.token ≠ .free := owns.token.symm ▸ nofun
  refine explained.withToken notFree ?_ (explained.flag_update ?_ ?_) ?_
  · rintro s' v same
    cases same
    exact owns.alone.holds
  · exact iff_of_true (by decide) rfl
  · intro s' different
    rw [owns.token]
    exact iff_of_false (fun same => different (Option.some.inj same).symm) nofun
  · rintro s' same
    cases same
    exact ⟨owns.curPsl, owns.ownerReqNum⟩

theorem storeCurPsl (explained : Explained g lock) (unmarked : g.cohort.token.socket? = none) :
    Explained { g with curPsl := some s } { lock with curPsl := some s } :=
  ⟨explained.wellFormed, explained.requests, explained.grant, explained.request,
    explained.grants, explained.socketGrant, rfl, explained.ownerReqNum,
    fun _ marked => nomatch unmarked.symm.trans marked⟩

theorem storeOwnerReqNum (explained : Explained g lock) (unmarked : g.cohort.token.socket? = none)
    (reqNum : UInt32) :
    Explained { g with ownerReqNum := Function.update g.ownerReqNum s reqNum }
      { lock with ownerReqNum := Function.update lock.ownerReqNum s reqNum } :=
  ⟨explained.wellFormed, explained.requests, explained.grant, explained.request,
    explained.grants, explained.socketGrant, explained.curPsl,
    congrArg (Function.update · s reqNum) explained.ownerReqNum,
    fun _ marked => nomatch unmarked.symm.trans marked⟩

end Explained

/-! ## One step of one thread in the ghost state -/

section ghostStep

variable [NeZero N] {g : Ghost N Tid} {lock lock' : CptltktLock N} {t : Tid}

omit [NeZero N] in
theorem Ghost.Owns.withToken {s : Fin N} {before : OuterToken (Fin N) Tid}
    (owns : g.Owns t s before) (after : OuterToken (Fin N) Tid) :
    Ghost.Owns (g.withCohort (g.cohort.withToken after)) t s after :=
  ⟨⟨owns.alone.only, owns.alone.holds, owns.alone.notPending⟩, rfl, owns.curPsl, owns.ownerReqNum⟩

omit [NeZero N] in
theorem Ghost.Owns.mine {s : Fin N} {token : OuterToken (Fin N) Tid} (owns : g.Owns t s token)
    (owner : token.owner? = some t) : g.cohort.token.owner? = some t :=
  owns.token.symm ▸ owner

omit [NeZero N] in
/-- A thread that releases its inner lock has no ticket left. -/
theorem Ghost.Alone.outside_release {s : Fin N} (wellFormed : g.cohort.WellFormed)
    (alone : g.Alone t s) (s' : Fin N) :
    ((g.cohort.withInner s (g.cohort.inner s).release).inner s').Outside t := by
  refine (alone.only.withInner _).outside ?_ s'
  rw [CohortState.withInner_self]
  exact FifoState.outside_release_self (wellFormed.inner s) alone.holds

omit [NeZero N] in
theorem Ghost.Alone.keeps_release {s : Fin N} (alone : g.Alone t s) {u : Tid} (different : u ≠ t) :
    g.Keeps u (g.withCohort (g.cohort.withInner s (g.cohort.inner s).release)) :=
  .of_cohort (CohortState.keeps_withInner (FifoState.keeps_release alone.holds different))

omit [NeZero N] in
theorem Ghost.keeps_withToken (mine : g.cohort.token.owner? = some t)
    (token : OuterToken (Fin N) Tid)
    (passes : forall s v, token = .passing s v -> (g.cohort.inner s).Holding t) {u : Tid}
    (different : u ≠ t) : g.Keeps u (g.withCohort (g.cohort.withToken token)) :=
  .of_cohort (CohortState.keeps_withToken mine passes different)

omit [NeZero N] in
theorem Ghost.keeps_accept {s : Fin N} (alone : g.Alone t s) (offered : g.cohort.token = .offered s)
    {token : OuterToken (Fin N) Tid} (unmarked : token.socket? = none) {u : Tid}
    (different : u ≠ t) : g.Keeps u (g.withCohort (g.cohort.withToken token)) :=
  .of_cohort (CohortState.keeps_accept offered alone.holds unmarked different)

omit [NeZero N] in
theorem Ghost.Keeps.trans {g' g'' : Ghost N Tid} {u : Tid} (first : g.Keeps u g')
    (second : g'.Keeps u g'') : g.Keeps u g'' where
  cohort := first.cohort.trans second.cohort
  registers := by
    intro owner
    have owner' : g'.cohort.token.owner? = some u := (first.cohort.owner owner).1.symm ▸ owner
    rcases first.registers owner with ⟨same, sameTable⟩
    rcases second.registers owner' with ⟨same', sameTable'⟩
    exact ⟨same'.trans same, sameTable'.trans sameTable⟩

/-- The thread with the outer lock first moves the token and then releases its inner lock. -/
theorem Explained.moveAndRelease {s : Fin N} {before : OuterToken (Fin N) Tid}
    (explained : Explained g lock) (owns : g.Owns t s before) (owner : before.owner? = some t)
    (after : OuterToken (Fin N) Tid) (marked : after.socket? = before.socket?)
    (notPassing : forall s' v, after ≠ .passing s' v) :
    exists g' : Ghost N Tid, g'.cohort.token = after ∧ g'.cohort.turn = g.cohort.turn ∧
      Explained g' { lock with grant := Function.update lock.grant s (g.nextGrant s) } ∧
      (forall s', (g'.cohort.inner s').Outside t) ∧ forall u, u ≠ t -> g.Keeps u g' := by
  have notFree : g.cohort.token ≠ .free := by
    rw [owns.token]
    rintro rfl
    cases owner
  have same : after.socket? = g.cohort.token.socket? := by
    rw [marked, owns.token]
  have explained' := explained.withToken_same notFree
    (fun s' v passing => absurd passing (notPassing s' v)) same
  have alone := (owns.withToken after).alone
  let moved := g.withCohort (g.cohort.withToken after)
  refine ⟨moved.withCohort (moved.cohort.withInner s (moved.cohort.inner s).release), rfl, rfl,
    explained'.release alone (notPassing s), alone.outside_release explained'.wellFormed,
    fun u different => ?_⟩
  have keeps := Ghost.keeps_withToken (owns.mine owner) after
    (fun s' v passing => absurd passing (notPassing s' v)) different
  exact keeps.trans (alone.keeps_release different)

/-- Every kind of step has a ghost step that the specification allows, that
keeps the explanation of the lock, and that the other threads do not notice. -/
theorem ghost_step {there there' : Place N} {event : CptltktEvent} (small : N ≤ 2 ^ 31)
    (explained : Explained g lock) (window : g.Window) (here : g.At t there)
    (effect : StepEffect lock lock' there there' event) :
    exists g' : Ghost N Tid,
      (mutex Tid).Steps g.cohort.token.holder? (observe (t, event)) g'.cohort.token.holder? ∧
        Explained g' lock' ∧ g'.At t there' ∧ forall u, u ≠ t -> g.Keeps u g' := by
  have wellFormed := explained.wellFormed
  cases effect with
  | silent there batchCount =>
      exact ⟨g, .refl _, ⟨wellFormed, explained.requests, explained.grant, explained.request,
        explained.grants, explained.socketGrant, explained.curPsl, explained.ownerReqNum,
        explained.left⟩, here, fun u _ => .of_cohort (.refl _ u)⟩
  | takesTicket psl =>
      have only : g.cohort.Only t psl := fun s _ => here s
      refine ⟨g.withCohort (g.cohort.withInner psl ((g.cohort.inner psl).arrive t)), .refl _,
        explained.arrive (here psl), ⟨only.withInner _, _, ?_, explained.requests psl⟩,
        fun u different =>
          .of_cohort (CohortState.keeps_withInner (FifoState.keeps_arrive different))⟩
      show ((g.cohort.withInner psl _).inner psl).Waiting t _
      rw [CohortState.withInner_self]
      exact FifoState.waiting_arrive_self (wellFormed.inner psl) t
  | @seesGrant psl reqNum granted =>
      rcases here with ⟨only, i, waits, rfl⟩
      rcases explained.first window waits granted with ⟨free, first⟩
      rcases wellFormed.idle free with ⟨notPending, notPassing⟩
      refine ⟨g.withCohort (g.cohort.withInner psl (g.cohort.inner psl).acquire), .refl _,
        explained.acquire free first, ⟨⟨only.withInner _, ?_, notPending⟩, notPassing⟩,
        fun u different =>
          .of_cohort (CohortState.keeps_withInner (FifoState.keeps_acquire free first different))⟩
      show ((g.cohort.withInner psl _).inner psl).Holding t
      rw [CohortState.withInner_self]
      exact FifoState.holding_acquire_self free first
  | @seesSocketGrant psl flag =>
      exact ⟨g, .refl _, explained, ⟨here.1, explained.offered here.2 flag⟩,
        fun u _ => .of_cohort (.refl _ u)⟩
  | takesSocketGrant psl =>
      rcases here with ⟨alone, offered⟩
      have unmarked : (OuterToken.entering t : OuterToken (Fin N) Tid).socket? = none := rfl
      rcases explained.accept alone offered unmarked with ⟨explained', owns⟩
      refine ⟨_, ?_, explained', owns, fun u => Ghost.keeps_accept alone offered unmarked⟩
      rw [offered]
      exact .refl _
  | takesSocketGrantAndReturns psl =>
      rcases here with ⟨alone, offered⟩
      have unmarked : (OuterToken.held t : OuterToken (Fin N) Tid).socket? = none := rfl
      rcases explained.accept alone offered unmarked with ⟨explained', owns⟩
      refine ⟨_, ?_, explained', ⟨psl, owns⟩, fun u => Ghost.keeps_accept alone offered unmarked⟩
      rw [offered]
      exact .single ⟨rfl, rfl⟩
  | returns psl =>
      have owns : g.Owns t psl (.entering t) := here
      have notFree : g.cohort.token ≠ .free := owns.token.symm ▸ nofun
      refine ⟨g.withCohort (g.cohort.withToken (.held t)), ?_,
        explained.withToken_same notFree nofun (by rw [owns.token]; rfl),
        ⟨psl, owns.withToken _⟩,
        fun u different => Ghost.keeps_withToken (owns.mine rfl) (.held t) nofun different⟩
      rw [owns.token]
      exact .single ⟨rfl, rfl⟩
  | takesInterTicket psl =>
      rcases here with ⟨alone, _⟩
      exact ⟨g.withCohort (g.cohort.request psl), .refl _, explained.takeInterTicket alone,
        ⟨alone.only, alone.holds, _, Function.update_self .., explained.request⟩,
        fun u different => .of_cohort (CohortState.keeps_request alone.holds different)⟩
  | @seesGrants psl reqNum granted =>
      rcases here with ⟨only, holds, j, pending, rfl⟩
      rcases explained.current small pending granted with rfl
      have free := wellFormed.free_of_pending pending
      refine ⟨g.withCohort (g.cohort.enter psl t), ?_, explained.enter pending,
        ⟨⟨only, holds, Function.update_self ..⟩, rfl, rfl⟩,
        fun u different => .of_cohort (CohortState.keeps_enter free holds different)⟩
      rw [free]
      exact .refl _
  | storesCurPsl psl reqNum =>
      rcases here with ⟨alone, entering, shows⟩
      have unmarked : g.cohort.token.socket? = none := by
        rw [entering]
        rfl
      refine ⟨{ g with curPsl := some psl }, .refl _, explained.storeCurPsl unmarked,
        ⟨⟨alone.only, alone.holds, alone.notPending⟩, entering, shows, rfl⟩,
        fun u different => ⟨.refl _ u, fun others => ?_⟩⟩
      rw [entering] at others
      exact absurd (Option.some.inj others).symm different
  | storesOwnerReqNum psl reqNum =>
      rcases here with ⟨alone, entering, shows, current⟩
      have notFree : g.cohort.token ≠ .free := entering.symm ▸ nofun
      have mine : g.cohort.token.owner? = some t := entering.symm ▸ rfl
      have explained' : Explained (g.withCohort (g.cohort.withToken (.held t))) lock :=
        explained.withToken_same notFree nofun (by rw [entering]; rfl)
      refine ⟨⟨g.cohort.withToken (.held t), g.curPsl, Function.update g.ownerReqNum psl reqNum⟩,
        ?_, explained'.storeOwnerReqNum rfl reqNum,
        ⟨psl, ⟨alone.only, alone.holds, alone.notPending⟩, rfl, current, ?_⟩,
        fun u different => ⟨CohortState.keeps_withToken mine nofun different, fun others => ?_⟩⟩
      · rw [entering]
        exact .single ⟨rfl, rfl⟩
      · exact (Function.update_self ..).trans shows
      · exact absurd (Option.some.inj (others.symm.trans mine)) different
  | @loadsCurPsl psl current =>
      rcases here with ⟨s, owns⟩
      have same : s = psl :=
        Option.some.inj (owns.curPsl.symm.trans (explained.curPsl.symm.trans current))
      subst same
      exact ⟨g, .refl _, explained, owns, fun u _ => .of_cohort (.refl _ u)⟩
  | loadsGrant psl =>
      refine ⟨g, .refl _, explained, ⟨here, ?_⟩, fun u _ => .of_cohort (.refl _ u)⟩
      rw [explained.grant, Ghost.nextGrant, wrap_succ]
  | setsSocketGrant psl nextGrant =>
      rcases here with ⟨owns, shows⟩
      have passes : forall s v, OuterToken.passing psl t = .passing s v ->
          (g.cohort.inner s).Holding t := by
        rintro s v same
        cases same
        exact owns.alone.holds
      refine ⟨g.withCohort (g.cohort.withToken (.passing psl t)), ?_, explained.mark owns,
        ⟨owns.withToken _, shows⟩, fun u => Ghost.keeps_withToken (owns.mine rfl) _ passes⟩
      rw [owns.token]
      exact .refl _
  | passes psl nextGrant =>
      rcases here with ⟨owns, rfl⟩
      rcases explained.moveAndRelease owns rfl (.offered psl) rfl nofun with
        ⟨g', token, _, explained', outside, others⟩
      refine ⟨g', ?_, explained', outside, others⟩
      rw [owns.token, token]
      exact .single ⟨rfl, rfl⟩
  | loadsOwnerReqNum psl nextGrant =>
      rcases here with ⟨owns, shows⟩
      refine ⟨g, .refl _, explained, ⟨owns, shows, ?_⟩, fun u _ => .of_cohort (.refl _ u)⟩
      rw [explained.ownerReqNum, owns.ownerReqNum, wrap_succ]
  | storesGrantsFirst psl nextGrant reqNum =>
      rcases here with ⟨owns, shows, shows'⟩
      have mine := owns.mine rfl
      have unmarked : g.cohort.token.socket? = none := owns.token.symm ▸ rfl
      refine ⟨g.withCohort g.cohort.releaseOuter, ?_, explained.releaseOuter mine unmarked shows',
        ⟨⟨owns.alone.only, owns.alone.holds, owns.alone.notPending⟩, nofun, shows⟩,
        fun u different => .of_cohort (CohortState.keeps_releaseOuter mine different)⟩
      rw [owns.token]
      exact .single ⟨rfl, rfl⟩
  | storesGrantFirst psl nextGrant reqNum =>
      rcases here with ⟨owns, rfl, shows'⟩
      rcases explained.moveAndRelease owns rfl (.leaving t) rfl nofun with
        ⟨g', token, turn, explained', outside, others⟩
      refine ⟨g', ?_, explained', ⟨outside, token, turn.symm ▸ shows'⟩, others⟩
      rw [owns.token, token]
      exact .single ⟨rfl, rfl⟩
  | storesGrantLast psl nextGrant =>
      rcases here with ⟨alone, notPassing, rfl⟩
      exact ⟨g.withCohort (g.cohort.withInner psl (g.cohort.inner psl).release), .refl _,
        explained.release alone notPassing, alone.outside_release wellFormed,
        fun u => alone.keeps_release⟩
  | storesGrantsLast reqNum =>
      rcases here with ⟨outside, leaving, shows⟩
      have mine : g.cohort.token.owner? = some t := leaving.symm ▸ rfl
      have unmarked : g.cohort.token.socket? = none := leaving.symm ▸ rfl
      refine ⟨g.withCohort g.cohort.releaseOuter, ?_, explained.releaseOuter mine unmarked shows,
        outside, fun u different => .of_cohort (CohortState.keeps_releaseOuter mine different)⟩
      rw [leaving]
      exact .refl _

end ghostStep

end Cptltkt

end UserLocks
end Autolock
