import Autolock.Concurrency.LockSpec
import Mathlib.Data.List.Count

namespace Autolock
namespace Concurrency

/-!
# A ledger of tickets

Every arrival at a lock takes the next ticket, and every release gives back the
ticket of its thread.  The ledger is read off the moves alone and says of each
ticket whose it is and whether it has been given back.

It counts what a waiter has before it: the earlier tickets that are still open.
Later tickets that have been given back have overtaken it.  A lock that serves
its clients in the order of their arrivals lets nobody overtake.
-/

structure TicketEntry (Tid : Type) where
  owner : Tid
  released : Bool
  deriving DecidableEq

namespace TicketLedger

variable {Tid : Type} [DecidableEq Tid]

/-- The entry of a ticket whose owner gives back all its tickets. -/
def giveBack (t : Tid) (entry : TicketEntry Tid) : TicketEntry Tid :=
  if entry.owner = t then ⟨entry.owner, true⟩ else entry

def note (entries : List (TicketEntry Tid)) : LockMove Tid -> List (TicketEntry Tid)
  | .arrive t => entries ++ [⟨t, false⟩]
  | .acquire _ => entries
  | .release t => entries.map (giveBack t)

/-- The tickets in the order in which they were taken. -/
def ofMoves (moves : List (LockMove Tid)) : List (TicketEntry Tid) := moves.foldl note []

/-- How many open tickets a thread has. -/
def openCount (entries : List (TicketEntry Tid)) (t : Tid) : Nat := entries.count ⟨t, false⟩

/-- The number of the first open ticket of a thread. -/
def ticketOf (entries : List (TicketEntry Tid)) (t : Tid) : Nat := entries.idxOf ⟨t, false⟩

omit [DecidableEq Tid] in
def releases (entries : List (TicketEntry Tid)) : Nat := entries.countP TicketEntry.released

/-- The tickets before that of the thread that are still open. -/
def openBefore (entries : List (TicketEntry Tid)) (t : Tid) : Nat :=
  (entries.take (ticketOf entries t)).countP fun entry => !entry.released

/-- The tickets after that of the thread that have been given back. -/
def releasedAfter (entries : List (TicketEntry Tid)) (t : Tid) : Nat :=
  releases (entries.drop (ticketOf entries t))

theorem ofMoves_append (moves more : List (LockMove Tid)) :
    ofMoves (moves ++ more) = more.foldl note (ofMoves moves) :=
  List.foldl_append

section entries

variable {entries : List (TicketEntry Tid)} {t u : Tid}

/-! ## An arrival -/

theorem openCount_arrive_self : openCount (note entries (.arrive t)) t = openCount entries t + 1 := by
  simp [note, openCount]

theorem openCount_arrive (different : u ≠ t) :
    openCount (note entries (.arrive t)) u = openCount entries u := by
  simp [note, openCount, different.symm]

theorem length_arrive : (note entries (.arrive t)).length = entries.length + 1 := by
  simp [note]

theorem releases_arrive : releases (note entries (.arrive t)) = releases entries := by
  simp [note, releases]

theorem ticketOf_arrive_self (none : openCount entries t = 0) :
    ticketOf (note entries (.arrive t)) t = entries.length := by
  have absent : ⟨t, false⟩ ∉ entries := List.count_eq_zero.mp none
  simp [note, ticketOf, List.idxOf_append_of_notMem absent]

theorem ticketOf_arrive (some : 0 < openCount entries u) :
    ticketOf (note entries (.arrive t)) u = ticketOf entries u :=
  List.idxOf_append_of_mem (List.count_pos_iff.mp some)

/-! ## A release -/

theorem giveBack_self_ne (entry : TicketEntry Tid) : giveBack t entry ≠ ⟨t, false⟩ := by
  unfold giveBack
  split
  · intro same
    cases congrArg TicketEntry.released same
  · next other =>
      intro same
      exact other (congrArg TicketEntry.owner same)

/-- The open tickets of the other threads are not touched. -/
theorem giveBack_eq_iff (different : u ≠ t) {entry : TicketEntry Tid} :
    giveBack t entry = ⟨u, false⟩ <-> entry = ⟨u, false⟩ := by
  unfold giveBack
  split
  · next own =>
      refine iff_of_false ?_ ?_
      · intro same
        cases congrArg TicketEntry.released same
      · intro same
        exact different ((congrArg TicketEntry.owner same).symm.trans own)
  · rfl

theorem openCount_release_self : openCount (note entries (.release t)) t = 0 := by
  refine List.count_eq_zero.mpr fun member => ?_
  rcases List.mem_map.mp member with ⟨entry, -, same⟩
  exact giveBack_self_ne entry same

theorem openCount_release (different : u ≠ t) :
    openCount (note entries (.release t)) u = openCount entries u := by
  simp [note, openCount, List.count, List.countP_map, Function.comp_def,
    giveBack_eq_iff different, Bool.beq_eq_decide_eq]

theorem length_release : (note entries (.release t)).length = entries.length := by
  simp [note]

theorem releases_release :
    releases (note entries (.release t)) = releases entries + openCount entries t := by
  induction entries with
  | nil => rfl
  | cons entry entries inductionHypothesis =>
      rcases entry with ⟨owner, released⟩
      simp only [releases, openCount, note, List.map_cons, List.countP_cons, List.count_cons]
        at inductionHypothesis ⊢
      rw [inductionHypothesis]
      by_cases own : owner = t
      · cases released <;> simp [giveBack, own] <;> omega
      · cases released <;> simp [giveBack, own]
        omega

theorem ticketOf_release (different : u ≠ t) :
    ticketOf (note entries (.release t)) u = ticketOf entries u := by
  induction entries with
  | nil => rfl
  | cons entry entries inductionHypothesis =>
      have rest : (entries.map (giveBack t)).idxOf ⟨u, false⟩ = entries.idxOf ⟨u, false⟩ :=
        inductionHypothesis
      simp only [ticketOf, note, List.map_cons, List.idxOf_cons, rest]
      by_cases own : entry = ⟨u, false⟩
      · simp [own, (giveBack_eq_iff different).mpr rfl]
      · have own' : giveBack t entry ≠ ⟨u, false⟩ := fun same =>
          own ((giveBack_eq_iff different).mp same)
        rw [beq_eq_false_iff_ne.mpr own, beq_eq_false_iff_ne.mpr own']

/-! ## What is before and after an open ticket -/

theorem ticketOf_lt (some : 0 < openCount entries t) : ticketOf entries t < entries.length :=
  List.idxOf_lt_length_iff.mpr (List.count_pos_iff.mp some)

/-- The tickets given back, and the open ones before a ticket, are the tickets
before it and those that have overtaken it. -/
theorem releases_add_openBefore (some : 0 < openCount entries t) :
    releases entries + openBefore entries t = ticketOf entries t + releasedAfter entries t := by
  have before : (entries.take (ticketOf entries t)).length = ticketOf entries t :=
    List.length_take_of_le (ticketOf_lt some).le
  have split : releases entries =
      (entries.take (ticketOf entries t)).countP TicketEntry.released + releasedAfter entries t := by
    rw [releasedAfter, releases, releases, ← List.countP_append, List.take_append_drop]
  have counted := List.length_eq_countP_add_countP TicketEntry.released
    (l := entries.take (ticketOf entries t))
  simp only [Bool.not_eq_true, Bool.decide_eq_false] at counted
  simp only [openBefore]
  omega

end entries

/-! ## Serving in the order of the arrivals -/

/-- What the ledger looks like when the tickets are given back in their order. -/
def inOrder (s : FifoState Tid) : List (TicketEntry Tid) :=
  s.arrivals.mapIdx fun i t => ⟨t, decide (i < s.releases)⟩

omit [DecidableEq Tid] in
theorem inOrder_getElem? (s : FifoState Tid) (i : Nat) :
    (inOrder s)[i]? = s.arrivals[i]?.map fun t => ⟨t, decide (i < s.releases)⟩ := by
  simp [inOrder]

omit [DecidableEq Tid] in
theorem releases_inOrder (s : FifoState Tid) :
    releases (inOrder s) = min s.releases s.arrivals.length := by
  rcases s with ⟨arrivals, grants, served⟩
  induction arrivals using List.reverseRecOn with
  | nil => simp [inOrder, releases]
  | append_singleton arrivals t inductionHypothesis =>
      simp only [inOrder, releases, List.mapIdx_concat, List.countP_append, List.countP_singleton,
        List.length_append, List.length_singleton, decide_eq_true_eq] at inductionHypothesis ⊢
      rw [inductionHypothesis]
      split <;> omega

theorem note_release_inOrder {s : FifoState Tid} {t : Tid} (wellFormed : s.WellFormed)
    (holding : s.Holding t) : note (inOrder s) (.release t) = inOrder s.release := by
  apply List.ext_getElem?
  intro i
  simp only [note, List.getElem?_map, inOrder_getElem?, Option.map_map,
    FifoState.release_arrivals, FifoState.release_releases]
  cases at_i : s.arrivals[i]? with
  | none => rfl
  | some u =>
      simp only [Option.map_some, Function.comp_apply, Option.some.injEq, giveBack]
      split
      · next own =>
          -- An open ticket of the holder is the one whose turn it is.
          subst own
          have early : i < s.releases + 1 := by
            by_contra late
            have same := wellFormed.unique u i s.releases ⟨at_i, by omega⟩ holding.hasTicket
            omega
          simp [early]
      · next other =>
          have notTurn : i ≠ s.releases := by
            intro isTurn
            subst isTurn
            exact other (Option.some.inj (at_i.symm.trans holding.2))
          have same : i < s.releases <-> i < s.releases + 1 := by omega
          simp [same]

theorem ofMoves_eq_inOrder {moves : List (LockMove Tid)} {s : FifoState Tid}
    (run : (fifoLock Tid).Run TransitionSystem.unguarded moves s) :
    ofMoves moves = inOrder s := by
  induction run with
  | start initial =>
      subst initial
      rfl
  | @step moves s move s' run moved _ inductionHypothesis =>
      have wellFormed := (FifoState.explains run).wellFormed
      rw [ofMoves_append, inductionHypothesis, List.foldl_cons, List.foldl_nil]
      cases move with
      | arrive t =>
          rcases moved with ⟨_, rfl⟩
          have notYet : ¬ s.arrivals.length < s.releases := by
            have := wellFormed.releases_le_grants
            have := wellFormed.grants_le_length
            omega
          rw [note, inOrder, inOrder, FifoState.arrive, List.mapIdx_concat, decide_eq_false notYet]
      | acquire t =>
          rcases moved with ⟨_, _, rfl⟩
          rfl
      | release t =>
          rcases moved with ⟨holding, rfl⟩
          exact note_release_inOrder wellFormed holding

/-- Nobody is overtaken. -/
theorem releasedAfter_inOrder {s : FifoState Tid} {t : Tid}
    (some : 0 < openCount (inOrder s) t) : releasedAfter (inOrder s) t = 0 := by
  have bounded := ticketOf_lt some
  have own : (inOrder s)[ticketOf (inOrder s) t] = ⟨t, false⟩ := List.getElem_idxOf bounded
  have notYet : s.releases ≤ ticketOf (inOrder s) t := by
    have shown := congrArg TicketEntry.released own
    simpa [inOrder] using shown
  refine List.countP_eq_zero.mpr fun entry member => ?_
  rcases List.mem_iff_getElem?.mp member with ⟨i, at_i⟩
  rw [List.getElem?_drop, inOrder_getElem?] at at_i
  rcases Option.map_eq_some_iff.mp at_i with ⟨u, -, rfl⟩
  simp only [decide_eq_true_eq]
  omega

end TicketLedger

end Concurrency
end Autolock
