import Autolock.Concurrency.Continuation
import Autolock.UserLocks.SimpleTicketRunnable
import Autolock.UserLocks.SimpleTicketSafety

namespace Autolock
namespace UserLocks

open Concurrency

/-!
# A held ticket stalls the simple ticket lock for good

Only the owner of the ticket that `cur_count` shows can take the lock and move
`cur_count` on.  If the kernel holds this thread back, it reads the word that
nobody else will ever change, and the page that only the thread itself can store
to.  So nothing that the other threads do lets anybody in again.
-/

namespace SimpleTicket

variable {Tid : Type} [DecidableEq Tid]

/-- The kernel schedules the thread. -/
def scheduled (_ : Tid) (_ : SimpleTicketAction) (lock : SimpleTicketLock)
    (l : SimpleTicketThread) : Bool :=
  !l.page.held lock.read

/-- The step neither gives the lock to its thread nor takes it back. -/
def ChangesNoOwner (label : Tid × SimpleTicketEvent) : Prop :=
  grantsLock label.2 = false ∧ label.2 ≠ .unlocked

section step

variable {trace : List (Tid × SimpleTicketEvent)} {g : Ghost Tid} {lock lock' : SimpleTicketLock}
  {t u : Tid} {pc : SimpleTicketPc} {there there' : Place} {event : SimpleTicketEvent}

/-- A thread whose ticket is up has the first ticket of the queue. -/
theorem Explained.waiting_of_turn (explained : Explained trace g lock)
    (few : g.queue.arrivals.length < g.queue.releases + 2 ^ 32) (here : g.At t (place pc))
    (ticket : pc.ticketNum? = some lock.curCount) : g.queue.Waiting t g.queue.releases := by
  cases pc <;> cases ticket <;> first
    | exact explained.first few here
    | exact here

/-- While the first ticket waits, a step of another thread leaves `cur_count` alone. -/
theorem Explained.others_wait (explained : Explained trace g lock)
    (few : g.queue.arrivals.length < g.queue.releases + 2 ^ 32)
    (turn : g.queue.Waiting t g.queue.releases) (different : u ≠ t) (here : g.At u there)
    (effect : StepEffect lock lock' there there' event)
    (within : event = .trylockReturned iSuccess -> countSinceLoad takesTicket u trace < 2 ^ 32) :
    ChangesNoOwner (u, event) ∧ lock'.curCount = lock.curCount := by
  have notFirst : forall i, g.queue.HasTicket u i -> i ≠ g.queue.releases := by
    rintro i ticket rfl
    exact different (Option.some.inj (ticket.1.symm.trans turn.1))
  cases effect with
  | silent | loads_next | sees_free | takes | sees_turn | reads_cur =>
      exact ⟨⟨rfl, nofun⟩, rfl⟩
  | fails => exact ⟨⟨rfl, nofun⟩, rfl⟩
  | wins =>
      have inside := turn.hasTicket.lt_length
      have empty := (explained.unclaimed here (within rfl)).1
      omega
  | enters seen =>
      rcases seen with rfl | rfl
      · exact absurd rfl (notFirst _ (explained.first few here).hasTicket)
      · exact absurd rfl (notFirst _ (FifoState.Waiting.hasTicket here))
  | releases => exact absurd rfl (notFirst _ here.1.hasTicket)

end step

/-- A thread whose ticket equals `cur_count` and which the kernel holds back is
held for ever: in every continuation of the run, whatever the threads do that the
kernel schedules, `cur_count` stays, and nobody acquires or releases the lock. -/
theorem held_turn_stalls (autolock : Bool) (trace : List (Tid × SimpleTicketEvent))
    (s : Machine Tid SimpleTicketLock SimpleTicketThread)
    (run : (system autolock).Run (withinPeriod takesTicket) trace s) (t : Tid)
    (turn : (s.thread t).pc.ticketNum? = some s.shared.curCount)
    (held : (s.thread t).page.held s.shared.read = true)
    (labels : List (Tid × SimpleTicketEvent)) (s' : Machine Tid SimpleTicketLock SimpleTicketThread)
    (continues : (program Tid autolock).Continues scheduled (withinPeriod takesTicket) trace s
      labels s') :
    (forall label, label ∈ labels -> ChangesNoOwner label) ∧
      s'.shared.curCount = s.shared.curCount ∧ s'.thread t = s.thread t ∧
      (s'.thread t).page.held s'.shared.read = true := by
  have stalled := continues.keeps
    (fun s₁ => s₁.shared.curCount = s.shared.curCount ∧ s₁.thread t = s.thread t)
    ChangesNoOwner run ⟨rfl, rfl⟩ ?_
  · rcases stalled with ⟨unowned, same, stays⟩
    have read : s'.shared.read = s.shared.read := by
      funext word
      cases word
      exact same
    exact ⟨unowned, same, stays, by rw [stays, read]; exact held⟩
  · rintro trace s₁ u action lock' l' event run₁ ⟨same, stays⟩ may stepped within
    rcases (threadInvariant autolock).run run₁ with ⟨g, _, ⟨explained, few⟩, locals⟩
    have read : s₁.shared.read = s.shared.read := by
      funext word
      cases word
      exact same
    have different : u ≠ t := by
      rintro rfl
      rw [scheduled, stays, read, held] at may
      cases may
    have first := explained.waiting_of_turn few (locals t) (by rw [stays, same]; exact turn)
    have effect := step_effect (show SimpleTicket.step autolock u _ _ _ = _ from stepped)
    rcases explained.others_wait few first different (locals u) effect within.2 with
      ⟨unowned, kept⟩
    exact ⟨unowned, kept.trans same, (Function.update_of_ne different.symm _ _).trans stays⟩

/-- Two threads stay within the period as long as no `trylock` succeeds. -/
theorem withinPeriod_of_check (trace : List (Bool × SimpleTicketEvent))
    (s : Machine Bool SimpleTicketLock SimpleTicketThread) (label : Bool × SimpleTicketEvent)
    (s' : Machine Bool SimpleTicketLock SimpleTicketThread)
    (checked : decide (label.2 ≠ .trylockReturned iSuccess) = true) :
    withinPeriod takesTicket trace s label s' :=
  ⟨encard_lt_of_card (by decide) (outstanding s'),
    fun success => absurd success (of_decide_eq_true checked)⟩

/-- The former holder tries again, in vain, and then queues up behind the thread
whose page has only the address. -/
def tryAgain : List (Bool × SimpleTicketAction) :=
  [(false, .callTrylock), (false, .run), (false, .run), (false, .callLock), (false, .run),
    (false, .run), (false, .run)]

theorem held_turn_stalls_halfArmed :
    let s := ((program Bool true).play (armBehindHolder 1) (fresh Bool)).1
    let result := ((program Bool true).confine scheduled).play tryAgain s
    (forall label, label ∈ result.2 -> ChangesNoOwner label) ∧
      result.1.shared.curCount = s.shared.curCount ∧ result.1.thread true = s.thread true ∧
      (result.1.thread true).page.held result.1.shared.read = true :=
  held_turn_stalls true _ _
    (Program.run_play_checked withinPeriod_of_check fresh_init (armBehindHolder 1) (by decide)) true
    (by decide) (by decide) _ _
    (Program.continues_play _ (fun _ => withinPeriod_of_check _) tryAgain (by decide))

end SimpleTicket

end UserLocks
end Autolock
