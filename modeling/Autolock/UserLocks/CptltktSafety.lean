import Autolock.Concurrency.Population
import Autolock.UserLocks.CptltktCohort
import Autolock.UserLocks.CptltktSolo

namespace Autolock
namespace UserLocks

open Concurrency

/-!
# Safety of the cohort lock

For up to `2 ^ 31` sockets the lock refines mutual exclusion.  With one socket
more there is a slot of the grants array in which only one value is ever
announced; a run of more than `2 ^ 32` rounds then ends with two threads in
the critical section.
-/

namespace Cptltkt

variable {Tid : Type} {N : Nat}

/-! ## The invariant of every run -/

def Ghost.initial (N : Nat) (Tid : Type) : Ghost N Tid where
  cohort := .initial (Fin N) Tid
  curPsl := none
  ownerReqNum := fun _ => 0

theorem explained_initial [NeZero N] : Explained (Ghost.initial N Tid) (lockInit N) where
  wellFormed := CohortState.wellFormed_initial
  requests := fun _ => rfl
  grant := fun _ => rfl
  request := rfl
  grants := announced_zero
  socketGrant := fun _ => iff_of_false (fun differs => differs rfl) nofun
  curPsl := rfl
  ownerReqNum := rfl
  left := nofun

theorem window_initial : (Ghost.initial N Tid).Window := by
  intro psl
  simp [Ghost.initial, CohortState.initial]

/-- With few threads at every socket the inner counters do not lap each other. -/
theorem window_of_roomy [NeZero N] {g : Ghost N Tid}
    (s : Machine Tid (CptltktLock N) (CptltktThread N)) (explained : Explained g s.shared)
    (places : forall u, g.At u (place (s.thread u).pc))
    (few : forall psl, (inside s psl).encard < (2 ^ 32 : Nat)) : g.Window := by
  intro psl
  refine (explained.wellFormed.inner psl).length_lt ?_ (few psl)
  intro u ticket
  show (s.thread u).pc.socket s.shared.curPsl = some psl
  rw [← socket_place, explained.curPsl]
  exact (places u).socket ticket

/-- Every interleaving refines the mutual exclusion specification. -/
def threadInvariant [NeZero N] [DecidableEq Tid] (small : N ≤ 2 ^ 31) (autolock : Bool) :
    ThreadInvariant (program Tid N autolock) init roomy (mutex Tid) observe
      (fun g : Ghost N Tid => g.cohort.token.holder?) where
  glob := fun _ g lock => Explained g lock ∧ g.Window
  loc := fun g t l => g.At t (place l.pc)
  start := by
    intro s initial
    rcases initial with ⟨shared, threads⟩
    refine ⟨Ghost.initial N Tid, rfl, ⟨shared ▸ explained_initial, window_initial⟩, fun t => ?_⟩
    rw [(threads t).1]
    intro psl i _
    simp [Ghost.initial, CohortState.initial]
  step := by
    intro _ g s t action lock' l' event global locals stepped roomy'
    rcases global with ⟨explained, window⟩
    have effect := step_effect (show Cptltkt.step autolock t _ _ _ = _ from stepped)
    rcases ghost_step small explained window (locals t) effect with
      ⟨g', steps, explained', own, others⟩
    have places : forall u, g'.At u (place (Function.update s.thread t l' u).pc) :=
      (Function.forall_update_iff s.thread fun u l => g'.At u (place l.pc)).mpr
        ⟨own, fun u different => (locals u).keep (others u different)⟩
    exact ⟨g', steps, ⟨explained', window_of_roomy ⟨lock', _⟩ explained' places roomy'⟩, own,
      fun u different other => other.keep (others u different)⟩

/-- The thread between the return of `lock` and the first releasing store of
its `unlock` is the one that the token names. -/
theorem Ghost.At.holder {g : Ghost N Tid} {t : Tid} {pc : CptltktPc N}
    (here : g.At t (place pc)) (holds : pc.holdsLock = true) :
    g.cohort.token.holder? = some t := by
  have ofOwns : forall {s token}, g.Owns t s token -> token.holder? = some t ->
      g.cohort.token.holder? = some t := fun owns isHolder => owns.token.symm ▸ isHolder
  cases pc <;> cases holds
  case holding =>
    rcases here with ⟨s, owns⟩
    exact ofOwns owns rfl
  case loadCurPsl =>
    rcases here with ⟨s, owns⟩
    exact ofOwns owns rfl
  case loadGrant => exact ofOwns here rfl
  all_goals exact ofOwns here.1 rfl

/-- For up to `2 ^ 31` sockets at most one thread is between the return of
`lock` and the first releasing store of its `unlock`, in every run in which
fewer than `2 ^ 32` tickets are outstanding at every socket. -/
theorem exclusive [NeZero N] [DecidableEq Tid] (small : N ≤ 2 ^ 31) (autolock : Bool)
    (trace : List (Tid × CptltktEvent)) (s : Machine Tid (CptltktLock N) (CptltktThread N))
    (run : (system N autolock).Run roomy trace s) (t u : Tid)
    (first : (s.thread t).pc.holdsLock = true) (second : (s.thread u).pc.holdsLock = true) :
    t = u := by
  rcases (threadInvariant small autolock).run run with ⟨g, _, _, locals⟩
  exact Option.some.inj (((locals t).holder first).symm.trans ((locals u).holder second))

/-- Fewer than `2 ^ 32` threads always fit. -/
theorem roomy_of_few [Fintype Tid] (few : Fintype.card Tid < 2 ^ 32)
    (s : Machine Tid (CptltktLock N) (CptltktThread N)) (psl : Fin N) :
    (inside s psl).encard < (2 ^ 32 : Nat) :=
  encard_lt_of_card few (inside s psl)

/-- One thread locks while the other waits on the same of three sockets, and
hands over with its releasing stores in the second order. -/
def cohortHandover : List (Bool × CptltktAction 3) :=
  (false, .callLock 2) :: List.replicate 7 (false, .run) ++
    [(true, .callLock 2), (true, .run), (true, .run), (false, .callUnlock)] ++
    List.replicate 6 (false, .run) ++ [(false, .runReordered)] ++ List.replicate 4 (true, .run) ++
    [(false, .run)] ++ List.replicate 3 (true, .run)

theorem exclusive_cohortHandover :
    let s := ((program Bool 3 false).play cohortHandover (fresh Bool 3)).1
    (s.thread true).pc.holdsLock = true ∧
      forall t, (s.thread t).pc.holdsLock = true -> t = true :=
  ⟨by decide, fun t holds => exclusive (by decide) false _ _
    ((Program.run_play fresh_init cohortHandover (by decide)).restrict
      fun _ _ _ s' _ => roomy_of_few (by decide) s') t true holds (by decide)⟩

/-! ## More sockets than half a period -/

/-- With `2 ^ 31 + 1` sockets only one value is announced in the slot `2 ^ 31 - 1`. -/
theorem slotOf_alone {m : Nat} (same : slotOf (2 ^ 31 + 1) m = slotOf (2 ^ 31 + 1) (2 ^ 31 - 1)) :
    wrap m = wrap (2 ^ 31 - 1) := by
  rw [slotOf_eq_iff] at same
  rw [wrap_eq_iff, Nat.ModEq]
  omega

/-- After enough rounds of one thread on the first socket the second socket
finds its ticket granted while the outer lock is held. -/
theorem free_acquired_manySockets {n : Nat} (rounds : n + 1 = 2 ^ 32 + (2 ^ 31 - 1)) :
    Free (acquired (afterRounds (0 : Fin (2 ^ 31 + 1)) n) 0) 1 := by
  have shown := rounds_afterRounds (0 : Fin (2 ^ 31 + 1)) n
  have other : (1 : Fin (2 ^ 31 + 1)) ≠ 0 := by decide
  have request :
      (acquired (afterRounds (0 : Fin (2 ^ 31 + 1)) n) 0).request = wrap (2 ^ 31 - 1) := by
    show (afterRounds 0 n).request + 1 = _
    rw [shown.request, ← wrap_succ, wrap_eq_iff, rounds]
    exact Nat.add_mod_left _ _
  refine ⟨?_, ?_, ?_⟩
  · simp [acquired, shown.requests, shown.grant, other]
  · simp [acquired, shown.socketGrant]
  · rw [request]
    exact grants_afterRounds 0 (fun m => slotOf_alone) (by omega)

/-- The second socket takes a grant of the previous period for its own: both
threads hold the lock, and each counter has one ticket outstanding or two. -/
theorem shared_manySockets :
    exists (trace : List (Bool × CptltktEvent))
      (s : Machine Bool (CptltktLock (2 ^ 31 + 1)) (CptltktThread (2 ^ 31 + 1))),
      (system (2 ^ 31 + 1) false).Run roomy trace s ∧
        (s.thread false).pc.holdsLock = true ∧ (s.thread true).pc.holdsLock = true := by
  have enough : exists n, n + 1 = 2 ^ 32 + (2 ^ 31 - 1) := ⟨_, rfl⟩
  rcases enough with ⟨n, rounds⟩
  rcases run_rounds false (0 : Fin (2 ^ 31 + 1)) n with ⟨trace, run⟩
  have first := (solo_lock false ⟨none, 0, 0⟩ (rounds_afterRounds 0 n).free).run rfl run
  have second := (solo_lock true ⟨none, 0, 0⟩ (free_acquired_manySockets rounds)).run rfl first
  exact ⟨_, _, second.restrict fun _ _ _ s' _ => roomy_of_few (by decide) s', rfl, rfl⟩

end Cptltkt

end UserLocks
end Autolock
