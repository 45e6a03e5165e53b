import Autolock.Concurrency.Continuation
import Autolock.UserLocks.CptltktRunnable

namespace Autolock
namespace UserLocks

open Concurrency

/-!
# A held outer ticket stalls the cohort lock for good

A thread that waits for the outer lock holds the inner lock of its socket, so
that nobody else moves the grant of the socket.  If the kernel holds the thread
back by this grant, it does so for ever.  Once the ticket of the thread is the
current one, nobody on any socket gets the outer lock any more.
-/

namespace Cptltkt

variable {Tid : Type} {N : Nat} [NeZero N]

/-- The kernel schedules the thread. -/
def scheduled (_ : Tid) (_ : CptltktAction N) (lock : CptltktLock N) (l : CptltktThread N) : Bool :=
  !l.page.held lock.read

/-- The step neither gives the lock to its thread nor takes it back. -/
def ChangesNoOwner (label : Tid × CptltktEvent) : Prop :=
  observe label = []

section step

variable {g : Ghost N Tid} {lock lock' : CptltktLock N} {t u : Tid} {psl : Fin N} {reqNum : UInt32}
  {there there' : Place N} {event : CptltktEvent}

/-- A thread that waits for a slot of the grants array does so for some socket. -/
theorem place_of_awaits {pc : CptltktPc N} {slot : Fin N}
    (waits : pc.awaits? = some (.grants slot, reqNum)) :
    slot = reqIdx reqNum ∧ exists psl, place pc = .interWaiting psl reqNum := by
  cases pc <;> cases waits <;> exact ⟨rfl, _, rfl⟩

/-- While it waits its page watches this slot or still the grant of its socket. -/
theorem PageOk.watches_of_interWaiting {l : CptltktThread N} (ok : PageOk l)
    (there : place l.pc = .interWaiting psl reqNum) :
    l.page.watchMem = some (.grant psl) ∨ l.page.watchMem = some (.grants (reqIdx reqNum)) := by
  rw [ok.watchMem_eq]
  rcases l with ⟨pc, page⟩
  cases pc <;> cases there
  case interYielding => exact Or.inr rfl
  all_goals exact Or.inl rfl

/-- Nobody else moves the grant of a socket whose inner lock is held. -/
theorem Ghost.grant_stays (holds : (g.cohort.inner psl).Holding t) (different : u ≠ t)
    (here : g.At u there) (effect : StepEffect lock lock' there there' event) :
    lock'.grant psl = lock.grant psl := by
  have elsewhere : forall {s}, (g.cohort.inner s).Holding u -> psl ≠ s := by
    rintro s others rfl
    exact different (others.unique holds)
  cases effect with
  | passes s => exact Function.update_of_ne (elsewhere here.1.alone.holds) ..
  | storesGrantFirst s => exact Function.update_of_ne (elsewhere here.1.alone.holds) ..
  | storesGrantLast s => exact Function.update_of_ne (elsewhere here.1.holds) ..
  | _ => rfl

/-- While nobody has taken the current ticket of the outer lock, no step gives the
lock to its thread, takes it back or announces a ticket. -/
theorem Ghost.outer_stays (free : g.cohort.token = .free) (here : g.At u there)
    (effect : StepEffect lock lock' there there' event) :
    ChangesNoOwner (u, event) ∧ lock'.grants = lock.grants := by
  have notFree : forall {token}, g.cohort.token = token -> token = .free :=
    fun same => same.symm.trans free
  cases effect with
  | takesSocketGrantAndReturns s => cases notFree here.2
  | returns s => cases notFree (Owns.token here)
  | storesOwnerReqNum s r => cases notFree here.2.1
  | passes s => cases notFree here.1.token
  | storesGrantsFirst s => cases notFree here.1.token
  | storesGrantFirst s => cases notFree here.1.token
  | storesGrantsLast => cases notFree here.2.1
  | _ => exact ⟨rfl, rfl⟩

end step

/-- A thread that waits for the outer lock and is held back by the grant of its socket
is held for ever, in every continuation of the run, whatever the threads do that the
kernel schedules.  If its ticket is in its slot, then the slots stay as they are and
nobody on any socket acquires or releases the lock any more. -/
theorem held_rearming_stalls [DecidableEq Tid] (small : N ≤ 2 ^ 31)
    (trace : List (Tid × CptltktEvent)) (s : Machine Tid (CptltktLock N) (CptltktThread N))
    (run : (system N true).Run roomy trace s) (t : Tid) (slot : Fin N) (reqNum : UInt32)
    (waits : (s.thread t).pc.awaits? = some (.grants slot, reqNum))
    (rearming : (s.thread t).page.watchMem ≠ some (.grants slot))
    (held : (s.thread t).page.held s.shared.read = true)
    (labels : List (Tid × CptltktEvent)) (s' : Machine Tid (CptltktLock N) (CptltktThread N))
    (continues : (program Tid N true).Continues scheduled roomy trace s labels s') :
    s'.thread t = s.thread t ∧ (s'.thread t).page.held s'.shared.read = true ∧
      (s.shared.grants slot = reqNum ->
        (forall label, label ∈ labels -> ChangesNoOwner label) ∧
          s'.shared.grants = s.shared.grants) := by
  rcases place_of_awaits waits with ⟨rfl, psl, there⟩
  have watches := ((run_pageOk run t).watches_of_interWaiting there).resolve_right rearming
  have same_held : forall {lock : CptltktLock N}, lock.grant psl = s.shared.grant psl ->
      (s.thread t).page.held lock.read = true := by
    intro lock sameGrant
    rw [← held]
    simp only [KernelAutolockAbi.held, watches, CptltktLock.read, sameGrant]
  have stalled := continues.keeps
    (fun s₁ => (s₁.shared.grant psl = s.shared.grant psl ∧ s₁.thread t = s.thread t) ∧
      (s.shared.grants (reqIdx reqNum) = reqNum -> s₁.shared.grants = s.shared.grants))
    (fun label => s.shared.grants (reqIdx reqNum) = reqNum -> ChangesNoOwner label)
    run ⟨⟨rfl, rfl⟩, fun _ => rfl⟩ ?_
  · rcases stalled with ⟨unowned, ⟨sameGrant, stays⟩, sameGrants⟩
    exact ⟨stays, by rw [stays]; exact same_held sameGrant, fun granted =>
      ⟨fun label member => unowned label member granted, sameGrants granted⟩⟩
  · rintro trace s₁ u action lock' l' event run₁ ⟨⟨sameGrant, stays⟩, sameGrants⟩ may stepped _
    rcases (threadInvariant small true).run run₁ with ⟨g, _, ⟨explained, _⟩, locals⟩
    have different : u ≠ t := by
      rintro rfl
      rw [scheduled, stays, same_held sameGrant] at may
      cases may
    have waiting : g.At t (.interWaiting psl reqNum) := by
      rw [← there, ← stays]
      exact locals t
    rcases waiting with ⟨_, holds, j, pending, rfl⟩
    have effect := step_effect (show Cptltkt.step true u _ _ _ = _ from stepped)
    -- A current ticket that has not been taken leaves the outer lock free.
    have outer : s.shared.grants (slotOf N j) = wrap j ->
        ChangesNoOwner (u, event) ∧ lock'.grants = s₁.shared.grants := by
      intro granted
      have shown := (congrFun (sameGrants granted) _).trans granted
      have current := explained.current small pending shown
      exact Ghost.outer_stays (explained.wellFormed.free_of_pending (current ▸ pending)) (locals u)
        effect
    exact ⟨fun granted => (outer granted).1,
      ⟨(Ghost.grant_stays holds different (locals u) effect).trans sameGrant,
        (Function.update_of_ne different.symm _ _).trans stays⟩,
      fun granted => (outer granted).2.trans (sameGrants granted)⟩

/-- The first thread locks its own socket again, until its page holds it back too. -/
def lockAgain : List (Bool × CptltktAction 2) :=
  (crossSockets 0 0).take 9

theorem held_rearming_stalls_lockAgain :
    let s := ((program Bool 2 true).play (crossSockets 7 1) (fresh Bool 2)).1
    let result := ((program Bool 2 true).confine scheduled).play lockAgain s
    (result.1.thread false).page.held result.1.shared.read = true ∧
      result.1.thread true = s.thread true ∧
      (result.1.thread true).page.held result.1.shared.read = true ∧
      (s.shared.grants 1 = 1 -> (forall label, label ∈ result.2 -> ChangesNoOwner label) ∧
        result.1.shared.grants = s.shared.grants) := by
  have few : forall labels s label s', true = true ->
      (roomy : TransitionSystem.Guard (Machine Bool (CptltktLock 2) (CptltktThread 2)) _)
        labels s label s' := fun _ _ _ s' _ => roomy_of_few (by decide) s'
  exact ⟨by decide, held_rearming_stalls (by decide) _ _
    (Program.run_play_checked few fresh_init (crossSockets 7 1) (by decide)) true 1 1
    (by decide) (by decide) (by decide) _ _
    (Program.continues_play (fun _ _ _ => true) (fun _ => few _) lockAgain (by decide))⟩

end Cptltkt

end UserLocks
end Autolock
