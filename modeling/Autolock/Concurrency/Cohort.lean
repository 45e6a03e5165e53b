import Autolock.Concurrency.LockSpec
import Mathlib.Data.Fintype.Card
import Mathlib.Order.Interval.Finset.Nat

namespace Autolock
namespace Concurrency

/-!
# Cohort locks: an outer lock that may stay with a socket

Threads queue at the inner lock of their socket.  The thread that holds an
inner lock takes a ticket of the outer lock on behalf of the socket, unless
the previous holder left the outer lock to the socket.  Who has the outer lock
is recorded by a token.

Outer tickets are unbounded numbers: `requests` have been taken and those
below `turn` have been released.  A socket has at most one pending ticket, so
that no more tickets are in use than there are sockets, and one.
-/

/-- Where the outer lock is.  From `held` to `passing` its thread is in the
critical section; when it is `offered` the next holder of the inner lock has it. -/
inductive OuterToken (Socket Tid : Type) where
  | free
  | entering (t : Tid)
  | held (t : Tid)
  | passing (s : Socket) (t : Tid)
  | offered (s : Socket)
  | leaving (t : Tid)

namespace OuterToken

variable {Socket Tid : Type}

/-- The thread that will move the token next. -/
def owner? : OuterToken Socket Tid -> Option Tid
  | .entering t | .held t | .passing _ t | .leaving t => some t
  | .free | .offered _ => none

/-- The thread in the critical section. -/
def holder? : OuterToken Socket Tid -> Option Tid
  | .held t | .passing _ t => some t
  | _ => none

/-- The socket to which the outer lock has been left. -/
def socket? : OuterToken Socket Tid -> Option Socket
  | .passing s _ | .offered s => some s
  | _ => none

end OuterToken

structure CohortState (Socket Tid : Type) where
  inner : Socket -> FifoState Tid
  requests : Nat
  turn : Nat
  pending : Socket -> Option Nat
  token : OuterToken Socket Tid

namespace CohortState

variable {Socket Tid : Type}

def initial (Socket Tid : Type) : CohortState Socket Tid where
  inner := fun _ => ⟨[], 0, 0⟩
  requests := 0
  turn := 0
  pending := fun _ => none
  token := .free

structure WellFormed (c : CohortState Socket Tid) : Prop where
  inner : forall s, (c.inner s).WellFormed
  turn_le : c.turn ≤ c.requests
  pending_range : forall s j, c.pending s = some j -> c.turn ≤ j ∧ j < c.requests
  pending_unique : forall s s' j, c.pending s = some j -> c.pending s' = some j -> s = s'
  /-- A socket waits for the outer lock only while its inner lock is held. -/
  pending_held : forall s j, c.pending s = some j ->
    (c.inner s).grants = (c.inner s).releases + 1
  /-- Every ticket after the current one is pending at some socket. -/
  covered : forall j, c.turn < j -> j < c.requests -> exists s, c.pending s = some j
  /-- The current ticket is that of the token. -/
  taken : c.token ≠ .free -> c.turn < c.requests ∧ forall s, c.pending s ≠ some c.turn
  passing_holding : forall s t, c.token = .passing s t -> (c.inner s).Holding t

theorem wellFormed_initial : (initial Socket Tid).WellFormed where
  inner := fun _ => FifoState.wellFormed_nil
  turn_le := Nat.le_refl 0
  pending_range := fun _ _ pending => nomatch pending
  pending_unique := fun _ _ _ pending => nomatch pending
  pending_held := fun _ _ pending => nomatch pending
  covered := fun _ _ taken => absurd taken (Nat.not_lt_zero _)
  taken := fun notFree => absurd rfl notFree
  passing_holding := fun _ _ passing => nomatch passing

/-- Besides the current ticket each socket has at most one. -/
theorem WellFormed.requests_le [Fintype Socket] {c : CohortState Socket Tid}
    (wellFormed : c.WellFormed) : c.requests ≤ c.turn + 1 + Fintype.card Socket := by
  classical
  have covered : Finset.Ioo c.turn c.requests ⊆
      Finset.univ.image fun s => (c.pending s).getD 0 := by
    intro j inRange
    rcases Finset.mem_Ioo.mp inRange with ⟨later, taken⟩
    rcases wellFormed.covered j later taken with ⟨s, pending⟩
    exact Finset.mem_image.mpr ⟨s, Finset.mem_univ s, by rw [pending, Option.getD_some]⟩
  have counted := (Finset.card_le_card covered).trans Finset.card_image_le
  rw [Nat.card_Ioo, Finset.card_univ] at counted
  omega

/-- `t` has no ticket of another socket's inner lock. -/
def Only (c : CohortState Socket Tid) (t : Tid) (s : Socket) : Prop :=
  forall s', s' ≠ s -> (c.inner s').Outside t

/-- What `u` can tell about its tickets and about the token is still the case. -/
structure Keeps (c : CohortState Socket Tid) (u : Tid) (c' : CohortState Socket Tid) : Prop where
  inner : forall s, (c.inner s).Keeps u (c'.inner s)
  pending : forall s, (c.inner s).Holding u -> c'.pending s = c.pending s
  offered : forall s, (c.inner s).Holding u -> c.token = .offered s -> c'.token = .offered s
  notPassing : forall s, (c.inner s).Holding u -> (forall v, c.token ≠ .passing s v) ->
    forall v, c'.token ≠ .passing s v
  owner : c.token.owner? = some u -> c'.token = c.token ∧ c'.turn = c.turn

theorem Keeps.refl (c : CohortState Socket Tid) (u : Tid) : c.Keeps u c where
  inner := fun s => FifoState.Keeps.refl u (c.inner s)
  pending := fun _ _ => rfl
  offered := fun _ _ => id
  notPassing := fun _ _ => id
  owner := fun _ => ⟨rfl, rfl⟩

theorem Keeps.trans {c c' c'' : CohortState Socket Tid} {u : Tid} (first : c.Keeps u c')
    (second : c'.Keeps u c'') : c.Keeps u c'' where
  inner := fun s => (first.inner s).trans (second.inner s)
  pending := by
    intro s holds
    exact (second.pending s ((first.inner s).holding holds).1).trans (first.pending s holds)
  offered := by
    intro s holds offered
    exact second.offered s ((first.inner s).holding holds).1 (first.offered s holds offered)
  notPassing := by
    intro s holds notPassing
    exact second.notPassing s ((first.inner s).holding holds).1
      (first.notPassing s holds notPassing)
  owner := by
    intro owner
    rcases first.owner owner with ⟨sameToken, sameTurn⟩
    rcases second.owner (sameToken.symm ▸ owner) with ⟨sameToken', sameTurn'⟩
    exact ⟨sameToken'.trans sameToken, sameTurn'.trans sameTurn⟩

theorem Only.keep {c c' : CohortState Socket Tid} {u : Tid} {s : Socket} (only : c.Only u s)
    (keeps : c.Keeps u c') : c'.Only u s :=
  fun s' different => (keeps.inner s').outside (only s' different)

section moves

variable [DecidableEq Socket]

/-- One inner lock moves. -/
def withInner (c : CohortState Socket Tid) (s : Socket) (q : FifoState Tid) :
    CohortState Socket Tid :=
  { c with inner := Function.update c.inner s q }

/-- The socket takes a ticket of the outer lock. -/
def request (c : CohortState Socket Tid) (s : Socket) : CohortState Socket Tid :=
  { c with requests := c.requests + 1, pending := Function.update c.pending s (some c.requests) }

/-- The ticket of the socket is current: `t` has the outer lock. -/
def enter (c : CohortState Socket Tid) (s : Socket) (t : Tid) : CohortState Socket Tid :=
  { c with pending := Function.update c.pending s none, token := .entering t }

def withToken (c : CohortState Socket Tid) (token : OuterToken Socket Tid) :
    CohortState Socket Tid :=
  { c with token := token }

/-- The current ticket is released. -/
def releaseOuter (c : CohortState Socket Tid) : CohortState Socket Tid :=
  { c with turn := c.turn + 1, token := .free }

variable {c : CohortState Socket Tid} {s : Socket} {t u : Tid}

@[simp] theorem withInner_self (q : FifoState Tid) : (c.withInner s q).inner s = q :=
  Function.update_self ..

theorem withInner_other {s' : Socket} (different : s' ≠ s) (q : FifoState Tid) :
    (c.withInner s q).inner s' = c.inner s' :=
  Function.update_of_ne different ..

theorem Only.withInner (only : c.Only t s) (q : FifoState Tid) : (c.withInner s q).Only t s := by
  intro s' different
  rw [withInner_other different]
  exact only s' different

/-- A thread that has no ticket left at its socket has none at all. -/
theorem Only.outside (only : c.Only t s) (outside : (c.inner s).Outside t) (s' : Socket) :
    (c.inner s').Outside t := by
  by_cases same : s' = s
  · subst same
    exact outside
  · exact only s' same

theorem keeps_withInner {q : FifoState Tid} (keeps : (c.inner s).Keeps u q) :
    c.Keeps u (c.withInner s q) where
  inner := by
    intro s'
    by_cases same : s' = s
    · subst same
      rwa [withInner_self]
    · rw [withInner_other same]
      exact FifoState.Keeps.refl u (c.inner s')
  pending := fun _ _ => rfl
  offered := fun _ _ => id
  notPassing := fun _ _ => id
  owner := fun _ => ⟨rfl, rfl⟩

omit [DecidableEq Socket] in
/-- The thread that has the token moves it. -/
theorem keeps_withToken (mine : c.token.owner? = some t) {token : OuterToken Socket Tid}
    (passes : forall s' v, token = .passing s' v -> (c.inner s').Holding t) (different : u ≠ t) :
    c.Keeps u (c.withToken token) where
  inner := fun s => FifoState.Keeps.refl u (c.inner s)
  pending := fun _ _ => rfl
  offered := by
    intro s' _ offered
    rw [offered] at mine
    cases mine
  notPassing := fun s' holds _ v passing => different (holds.unique (passes s' v passing))
  owner := fun others => absurd (Option.some.inj (others.symm.trans mine)) different

omit [DecidableEq Socket] in
/-- The holder of the inner lock takes the token that was left to its socket. -/
theorem keeps_accept (offered : c.token = .offered s) (holds : (c.inner s).Holding t)
    {token : OuterToken Socket Tid} (unmarked : token.socket? = none) (different : u ≠ t) :
    c.Keeps u (c.withToken token) where
  inner := fun s => FifoState.Keeps.refl u (c.inner s)
  pending := fun _ _ => rfl
  offered := by
    intro s' others offered'
    rw [offered] at offered'
    cases offered'
    exact absurd (others.unique holds) different
  notPassing := by
    intro s' _ _ v passing
    change token = _ at passing
    rw [passing] at unmarked
    cases unmarked
  owner := by
    intro others
    rw [offered] at others
    cases others

theorem keeps_request (holds : (c.inner s).Holding t) (different : u ≠ t) :
    c.Keeps u (c.request s) where
  inner := fun s => FifoState.Keeps.refl u (c.inner s)
  pending := by
    intro s' others
    have elsewhere : s' ≠ s := by
      rintro rfl
      exact different (others.unique holds)
    simp [request, elsewhere]
  offered := fun _ _ => id
  notPassing := fun _ _ => id
  owner := fun _ => ⟨rfl, rfl⟩

theorem keeps_enter (free : c.token = .free) (holds : (c.inner s).Holding t) (different : u ≠ t) :
    c.Keeps u (c.enter s t) where
  inner := fun s => FifoState.Keeps.refl u (c.inner s)
  pending := by
    intro s' others
    have elsewhere : s' ≠ s := by
      rintro rfl
      exact different (others.unique holds)
    simp [enter, elsewhere]
  offered := by
    intro _ _ offered
    rw [free] at offered
    cases offered
  notPassing := fun _ _ _ _ passing => nomatch passing
  owner := by
    intro owner
    rw [free] at owner
    cases owner

omit [DecidableEq Socket] in
theorem keeps_releaseOuter (mine : c.token.owner? = some t) (different : u ≠ t) :
    c.Keeps u c.releaseOuter where
  inner := fun s => FifoState.Keeps.refl u (c.inner s)
  pending := fun _ _ => rfl
  offered := by
    intro _ _ offered
    rw [offered] at mine
    cases mine
  notPassing := fun _ _ _ _ passing => nomatch passing
  owner := fun others => absurd (Option.some.inj (others.symm.trans mine)) different

/-! ### The moves keep the state well formed -/

theorem WellFormed.withInner (wellFormed : c.WellFormed) {q : FifoState Tid} (inner : q.WellFormed)
    (held : forall j, c.pending s = some j -> q.grants = q.releases + 1)
    (passing : forall v, c.token = .passing s v -> q.Holding v) :
    (c.withInner s q).WellFormed where
  inner := by
    intro s'
    by_cases same : s' = s
    · subst same
      rwa [withInner_self]
    · rw [withInner_other same]
      exact wellFormed.inner s'
  turn_le := wellFormed.turn_le
  pending_range := wellFormed.pending_range
  pending_unique := wellFormed.pending_unique
  pending_held := by
    intro s' j pending
    by_cases same : s' = s
    · subst same
      rw [withInner_self]
      exact held j pending
    · rw [withInner_other same]
      exact wellFormed.pending_held s' j pending
  covered := wellFormed.covered
  taken := wellFormed.taken
  passing_holding := by
    intro s' v passes
    by_cases same : s' = s
    · subst same
      rw [withInner_self]
      exact passing v passes
    · rw [withInner_other same]
      exact wellFormed.passing_holding s' v passes

theorem WellFormed.arrive (wellFormed : c.WellFormed) (outside : (c.inner s).Outside t) :
    (c.withInner s ((c.inner s).arrive t)).WellFormed :=
  wellFormed.withInner ((wellFormed.inner s).arrive outside) (wellFormed.pending_held s)
    fun v passing => (wellFormed.passing_holding s v passing).arrive t

omit [DecidableEq Socket] in
/-- While an inner lock is free its socket neither waits for the outer lock
nor is passing it on. -/
theorem WellFormed.idle (wellFormed : c.WellFormed)
    (free : (c.inner s).grants = (c.inner s).releases) :
    c.pending s = none ∧ forall v, c.token ≠ .passing s v := by
  constructor
  · cases pending : c.pending s with
    | none => rfl
    | some j =>
        have := wellFormed.pending_held s j pending
        omega
  · intro v passing
    have := (wellFormed.passing_holding s v passing).1
    omega

theorem WellFormed.acquire (wellFormed : c.WellFormed)
    (free : (c.inner s).grants = (c.inner s).releases)
    (first : (c.inner s).arrivals[(c.inner s).grants]? = some t) :
    (c.withInner s (c.inner s).acquire).WellFormed := by
  rcases wellFormed.idle free with ⟨notPending, notPassing⟩
  refine wellFormed.withInner ((wellFormed.inner s).acquire free first) ?_ ?_
  · intro j pending
    rw [notPending] at pending
    cases pending
  · exact fun v passing => absurd passing (notPassing v)

theorem WellFormed.release (wellFormed : c.WellFormed) (holds : (c.inner s).Holding t)
    (notPending : c.pending s = none) (notPassing : forall v, c.token ≠ .passing s v) :
    (c.withInner s (c.inner s).release).WellFormed := by
  refine wellFormed.withInner ((wellFormed.inner s).release holds) ?_ ?_
  · intro j pending
    rw [notPending] at pending
    cases pending
  · exact fun v passing => absurd passing (notPassing v)

theorem WellFormed.request (wellFormed : c.WellFormed) (holds : (c.inner s).Holding t)
    (notPending : c.pending s = none) : (c.request s).WellFormed := by
  have old : forall s' j, (c.request s).pending s' = some j ->
      (s' = s ∧ j = c.requests) ∨ (s' ≠ s ∧ c.pending s' = some j) := by
    intro s' j pending
    by_cases same : s' = s
    · subst same
      simp only [CohortState.request, Function.update_self, Option.some.injEq] at pending
      exact .inl ⟨rfl, pending.symm⟩
    · simp only [CohortState.request, Function.update_of_ne same] at pending
      exact .inr ⟨same, pending⟩
  have unchanged : forall s', s' ≠ s -> (c.request s).pending s' = c.pending s' :=
    fun s' different => Function.update_of_ne different ..
  refine ⟨wellFormed.inner, Nat.le_succ_of_le wellFormed.turn_le, ?_, ?_, ?_, ?_, ?_,
    wellFormed.passing_holding⟩
  · intro s' j pending
    rcases old s' j pending with ⟨rfl, rfl⟩ | ⟨_, pending⟩
    · exact ⟨wellFormed.turn_le, Nat.lt_succ_self _⟩
    · exact ⟨(wellFormed.pending_range s' j pending).1,
        Nat.lt_succ_of_lt (wellFormed.pending_range s' j pending).2⟩
  · intro s₁ s₂ j first second
    rcases old s₁ j first with ⟨rfl, rfl⟩ | ⟨_, old₁⟩
    · rcases old s₂ _ second with ⟨rfl, _⟩ | ⟨_, old₂⟩
      · rfl
      · exact absurd (wellFormed.pending_range s₂ _ old₂).2 (Nat.lt_irrefl _)
    · rcases old s₂ j second with ⟨rfl, rfl⟩ | ⟨_, old₂⟩
      · exact absurd (wellFormed.pending_range s₁ _ old₁).2 (Nat.lt_irrefl _)
      · exact wellFormed.pending_unique s₁ s₂ j old₁ old₂
  · intro s' j pending
    rcases old s' j pending with ⟨rfl, _⟩ | ⟨_, pending⟩
    · exact holds.1
    · exact wellFormed.pending_held s' j pending
  · intro j later taken
    rcases Nat.lt_or_eq_of_le (Nat.le_of_lt_succ taken) with before | now
    · rcases wellFormed.covered j later before with ⟨s', pending⟩
      have different : s' ≠ s := by
        rintro rfl
        rw [notPending] at pending
        cases pending
      exact ⟨s', (unchanged s' different).trans pending⟩
    · subst now
      exact ⟨s, Function.update_self ..⟩
  · intro notFree
    rcases wellFormed.taken notFree with ⟨inUse, notTurn⟩
    refine ⟨Nat.lt_succ_of_lt inUse, fun s' pending => ?_⟩
    rcases old s' _ pending with ⟨_, isNew⟩ | ⟨_, pending⟩
    · exact absurd isNew (Nat.ne_of_lt inUse)
    · exact notTurn s' pending

omit [DecidableEq Socket] in
/-- The current ticket is pending only while the token is free. -/
theorem WellFormed.free_of_pending (wellFormed : c.WellFormed)
    (current : c.pending s = some c.turn) : c.token = .free := by
  by_contra notFree
  exact (wellFormed.taken notFree).2 s current

theorem WellFormed.enter (wellFormed : c.WellFormed) (current : c.pending s = some c.turn) :
    (c.enter s t).WellFormed := by
  have old : forall s' j, (c.enter s t).pending s' = some j ->
      s' ≠ s ∧ c.pending s' = some j := by
    intro s' j pending
    by_cases same : s' = s
    · subst same
      simp [CohortState.enter] at pending
    · simp only [CohortState.enter, Function.update_of_ne same] at pending
      exact ⟨same, pending⟩
  refine ⟨wellFormed.inner, wellFormed.turn_le, ?_, ?_, ?_, ?_, ?_, ?_⟩
  · exact fun s' j pending => wellFormed.pending_range s' j (old s' j pending).2
  · exact fun s₁ s₂ j first second =>
      wellFormed.pending_unique s₁ s₂ j (old s₁ j first).2 (old s₂ j second).2
  · exact fun s' j pending => wellFormed.pending_held s' j (old s' j pending).2
  · intro j later taken
    rcases wellFormed.covered j later taken with ⟨s', pending⟩
    have different : s' ≠ s := by
      rintro rfl
      exact absurd (Option.some.inj (current.symm.trans pending)) (Nat.ne_of_lt later)
    exact ⟨s', (Function.update_of_ne different ..).trans pending⟩
  · intro _
    refine ⟨(wellFormed.pending_range s _ current).2, fun s' pending => ?_⟩
    rcases old s' _ pending with ⟨different, pending'⟩
    exact different (wellFormed.pending_unique s' s _ pending' current)
  · exact fun _ _ passing => nomatch passing

omit [DecidableEq Socket] in
theorem WellFormed.withToken (wellFormed : c.WellFormed) (notFree : c.token ≠ .free)
    {token : OuterToken Socket Tid}
    (passes : forall s v, token = .passing s v -> (c.inner s).Holding v) :
    (c.withToken token).WellFormed :=
  ⟨wellFormed.inner, wellFormed.turn_le, wellFormed.pending_range, wellFormed.pending_unique,
    wellFormed.pending_held, wellFormed.covered, fun _ => wellFormed.taken notFree, passes⟩

omit [DecidableEq Socket] in
theorem WellFormed.releaseOuter (wellFormed : c.WellFormed) (notFree : c.token ≠ .free) :
    c.releaseOuter.WellFormed := by
  rcases wellFormed.taken notFree with ⟨inUse, notTurn⟩
  refine ⟨wellFormed.inner, inUse, ?_, wellFormed.pending_unique, wellFormed.pending_held,
    fun j later => wellFormed.covered j (Nat.lt_of_succ_lt later), fun again => absurd rfl again,
    fun _ _ passing => nomatch passing⟩
  intro s j pending
  rcases wellFormed.pending_range s j pending with ⟨later, taken⟩
  have notCurrent : j ≠ c.turn := by
    rintro rfl
    exact notTurn s pending
  exact ⟨Nat.lt_of_le_of_ne later (Ne.symm notCurrent), taken⟩

end moves

end CohortState

end Concurrency
end Autolock
