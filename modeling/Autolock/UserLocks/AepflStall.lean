import Autolock.Concurrency.Continuation
import Autolock.UserLocks.AepflExclusion
import Autolock.UserLocks.AepflRunnable

namespace Autolock
namespace UserLocks

open Concurrency

/-!
# A held slot stalls the array-queue lock for good

The one flag that is unlocked is that of the thread with the first ticket.  If
the kernel holds this thread back, nobody can lock the flag again or unlock the
next one, and every other waiter looks at a locked flag.
-/

namespace Aepfl

variable {Tid : Type} [DecidableEq Tid]

/-- The kernel schedules the thread. -/
def scheduled (_ : Tid) (_ : AepflAction) (lock : AepflLock) (l : AepflThread) : Bool :=
  !l.page.held lock.flags

/-- The step neither gives the lock to its thread nor takes it back. -/
def ChangesNoOwner (label : Tid × AepflEvent) : Prop :=
  grantsLock label.2 = false ∧ label.2 ≠ .tookHead

section step

variable {g : Ghost Tid} {lock lock' : AepflLock} {t u : Tid} {pc : AepflPc} {slot : AepflSlot}
  {there there' : Place} {event : AepflEvent}

omit [DecidableEq Tid] in
/-- A thread whose flag is unlocked has the first ticket, and nobody is unlocking. -/
theorem Explained.granted_of_slot (explained : Explained g lock) (window : g.Window)
    (here : g.At t (place pc)) (ofSlot : pc.slot? = some slot)
    (free : lock.flags slot = AepflFlag.unlocked) : g.At t .granted := by
  have notLocked : lock.flags slot ≠ AepflFlag.locked := by
    rw [free]
    decide
  cases pc <;> cases ofSlot <;> first
    | exact explained.first window here notLocked
    | exact here

omit [DecidableEq Tid] in
/-- While the first ticket waits, a step of another thread leaves the flags alone. -/
theorem Explained.others_wait (explained : Explained g lock) (window : g.Window)
    (turn : g.At t .granted) (different : u ≠ t) (here : g.At u there)
    (effect : StepEffect lock lock' there there' event)
    (freeWhenTried : event = .trylockReturned iSuccess -> lock.head = lock.tail) :
    ChangesNoOwner (u, event) ∧ lock'.flags = lock.flags := by
  rcases turn with ⟨waits, released, notPassing⟩
  have notFirst : g.queue.arrivals[g.turn]? ≠ some u := by
    intro mine
    exact different (Option.some.inj (mine.symm.trans waits.1))
  cases effect with
  | silent there quiet =>
      refine ⟨?_, rfl⟩
      rcases quiet with rfl | rfl
      · exact ⟨rfl, nofun⟩
      · exact ⟨rfl, nofun⟩
  | takes | sees_turn => exact ⟨⟨rfl, nofun⟩, rfl⟩
  | wins =>
      have inside := waits.hasTicket.lt_length
      have empty := (explained.empty window (freeWhenTried rfl)).1
      omega
  | enters seen =>
      have granted : g.At u .granted := by
        rcases seen with rfl | ⟨slot, rfl, free⟩
        · exact here
        · exact explained.first window here free
      exact absurd granted.1.1 notFirst
  | takes_head =>
      have holds := FifoState.Holding.hasTicket here
      rw [released] at holds
      exact absurd holds.1 notFirst
  | locks slot =>
      rcases here with ⟨k, ticket, earlier, _⟩
      have later : g.turn ≤ k := ticket.2
      omega
  | unlocks slot =>
      have earlier := here.2.1
      omega

end step

/-- A thread whose flag is unlocked and which the kernel holds back is held for
ever: in every orderly continuation of the run, whatever the threads do that the
kernel schedules, the flags stay, and nobody acquires or releases the lock. -/
theorem held_slot_stalls (autolock : Bool) (trace : List (Tid × AepflEvent))
    (s : Machine Tid AepflLock AepflThread) (run : (system autolock).Run orderly trace s) (t : Tid)
    (slot : AepflSlot) (ofSlot : (s.thread t).pc.slot? = some slot)
    (free : s.shared.flags slot = AepflFlag.unlocked)
    (held : (s.thread t).page.held s.shared.flags = true)
    (labels : List (Tid × AepflEvent)) (s' : Machine Tid AepflLock AepflThread)
    (continues : (program Tid autolock).Continues scheduled orderly trace s labels s') :
    (forall label, label ∈ labels -> ChangesNoOwner label) ∧
      s'.shared.flags = s.shared.flags ∧ s'.thread t = s.thread t ∧
      (s'.thread t).page.held s'.shared.flags = true := by
  have stalled := continues.keeps
    (fun s₁ => s₁.shared.flags = s.shared.flags ∧ s₁.thread t = s.thread t)
    ChangesNoOwner run ⟨rfl, rfl⟩ ?_
  · rcases stalled with ⟨unowned, same, stays⟩
    exact ⟨unowned, same, stays, by rw [stays, same]; exact held⟩
  · rintro trace s₁ u action lock' l' event run₁ ⟨same, stays⟩ may stepped within
    rcases (threadInvariant autolock).run run₁ with ⟨g, _, ⟨explained, window, _⟩, locals⟩
    have different : u ≠ t := by
      rintro rfl
      rw [scheduled, stays, same, held] at may
      cases may
    have turn : g.At t .granted :=
      explained.granted_of_slot window (locals t) (by rw [stays]; exact ofSlot) (by rw [same]; exact free)
    have effect := step_effect (show Aepfl.step autolock u _ _ _ = _ from stepped)
    rcases explained.others_wait window turn different (locals u) effect within.2.1 with
      ⟨unowned, kept⟩
    exact ⟨unowned, kept.trans same, (Function.update_of_ne different.symm _ _).trans stays⟩

theorem orderly_of_check (trace : List (Bool × AepflEvent)) (s : Machine Bool AepflLock AepflThread)
    (label : Bool × AepflEvent) (s' : Machine Bool AepflLock AepflThread)
    (checked : carefulCheck s label = true) : orderly trace s label s' := by
  rcases carefulTrylock_of_check trace s label s' checked with ⟨roomy, free, inOrder⟩
  exact ⟨roomy, free, Or.inl inOrder⟩

/-- The former holder queues up behind the thread whose page has only the
address, and is then held as well. -/
def lockAgain : List (Bool × AepflAction) :=
  [(false, .callLock), (false, .run), (false, .run), (false, .run), (false, .run)]

theorem held_slot_stalls_halfArmed :
    let s := ((program Bool true).play (armBehindHolder 1) (fresh Bool)).1
    let result := ((program Bool true).confine scheduled).play lockAgain s
    (forall label, label ∈ result.2 -> ChangesNoOwner label) ∧
      result.1.shared.flags = s.shared.flags ∧ result.1.thread true = s.thread true ∧
      (result.1.thread true).page.held result.1.shared.flags = true :=
  held_slot_stalls true _ _
    (Program.run_play_checked orderly_of_check fresh_init (armBehindHolder 1) (by decide)) true 1
    (by decide) (by decide) (by decide) _ _
    (Program.continues_play _ (fun _ => orderly_of_check _) lockAgain (by decide))

end Aepfl

end UserLocks
end Autolock
