import Autolock.UserLocks.ClhSafety

namespace Autolock
namespace UserLocks

open Concurrency

/-!
# A granted waiter of the CLH lock may always run

The page receives its address last, when the value and the polarity are those
of the new wait.  Whatever an earlier wait has left in it, a waiter may thus
run as soon as the node before it is unlocked, whether it has armed its page
by then or is still about to.
-/

namespace ClhPc

/-- The node that a thread waits on, until it frees the node. -/
def prevNode? {Addr : Type} : ClhPc Addr -> Option Addr
  | .testPrev _ prevNode | .setWatchFor _ prevNode | .setWatchNeq _ prevNode
  | .setWatchMem _ prevNode | .testHead _ prevNode | .nextInQueue _ prevNode
  | .pausing _ prevNode _ | .yielding _ prevNode | .disarm _ prevNode
  | .nodeFree _ prevNode => some prevNode
  | _ => none

/-- Inside `lock`: the function has been called and has not returned. -/
def inLock {Addr : Type} : ClhPc Addr -> Bool
  | .outside | .holding _ | .unlockLoadHead _ | .unlockStore _ _ => false
  | _ => true

/-- From the load that has found the lock free to the store of UNLOCKED in `unlock`. -/
def hasPassed {Addr : Type} : ClhPc Addr -> Bool
  | .disarm _ _ | .nodeFree _ _ | .saveHead _ => true
  | pc => pc.holdsLock

end ClhPc

namespace Clh

variable {Tid Addr : Type}

/-- The thread's predecessor has unlocked its node, or the thread has the lock. -/
def Entitled (lock : ClhLock Addr) (l : ClhThread Addr) : Prop :=
  (exists p, l.pc.prevNode? = some p ∧ lock.heap.word p = ClhNode.unlocked) ∨
    l.pc.hasPassed = true

theorem ArmedFor.runnable {autolock : Bool} {page : KernelAutolockAbi Addr} {p : Addr}
    {read : Addr -> UInt32} (armed : ArmedFor autolock page p)
    (free : read p = ClhNode.unlocked) : page.held read = false := by
  cases autolock with
  | false => exact KernelAutolockAbi.held_disarmed (armed.2 rfl)
  | true =>
      rcases armed.1 rfl with ⟨address, value, polarity⟩
      exact KernelAutolockAbi.held_expected address polarity (free.trans value.symm)

/-- The thread may run once the node that it waits on is unlocked. -/
theorem PageOk.runnable {autolock : Bool} {l : ClhThread Addr} (ok : PageOk autolock l)
    {read : Addr -> UInt32}
    (free : forall p, l.pc.prevNode? = some p -> read p = ClhNode.unlocked) :
    l.page.held read = false := by
  rcases l with ⟨pc, page⟩
  cases pc
  case testHead node prevNode => exact ArmedFor.runnable ok (free prevNode rfl)
  case nextInQueue node prevNode => exact ArmedFor.runnable ok (free prevNode rfl)
  case pausing node prevNode tmpWaitIters => exact ArmedFor.runnable ok (free prevNode rfl)
  case yielding node prevNode => exact ArmedFor.runnable ok (free prevNode rfl)
  case disarm node prevNode => exact ArmedFor.runnable ok.2 (free prevNode rfl)
  case setWatchFor => exact KernelAutolockAbi.held_disarmed ok.2
  case setWatchNeq => exact KernelAutolockAbi.held_disarmed ok.2.1
  case setWatchMem => exact KernelAutolockAbi.held_disarmed ok.2.1
  all_goals exact KernelAutolockAbi.held_disarmed ok

theorem PageOk.returned {autolock : Bool} {l : ClhThread Addr} (ok : PageOk autolock l)
    (outside : l.pc.inLock = false) : l.page.watchMem = none := by
  rcases l with ⟨pc, page⟩
  cases pc <;> first | exact ok | cases outside

/-! ## The two values of a node -/

/-- The node has been given one of its two values. -/
def HasFlag (word : Addr -> UInt32) (p : Addr) : Prop :=
  word p = ClhNode.unlocked ∨ word p = ClhNode.locked

/-- The node that a thread is about to enqueue or waits on. -/
def Stage.queued? : Stage Addr -> Option Addr
  | .preparing node true => some node
  | .waiting _ prevNode | .granted _ prevNode => some prevNode
  | _ => none

theorem HasFlag.store [DecidableEq Addr] {word : Addr -> UInt32} {p : Addr}
    (flag : HasFlag word p) (q : Addr) {w : UInt32}
    (value : w = ClhNode.unlocked ∨ w = ClhNode.locked) :
    HasFlag (Function.update word q w) p := by
  unfold HasFlag
  by_cases same : p = q
  · rw [same, Function.update_self]
    exact value
  · rw [Function.update_of_ne same]
    exact flag

/-- Every step leaves the enqueued nodes with one of the two values. -/
theorem StepEffect.hasFlag [DecidableEq Addr] {t : Tid} {lock lock' : ClhLock Addr}
    {place place' : Stage Addr} {event : ClhEvent}
    (effect : StepEffect t lock lock' place place' event)
    (tail : HasFlag lock.heap.word lock.tail)
    (own : forall p, place.queued? = some p -> HasFlag lock.heap.word p) :
    (forall p, HasFlag lock.heap.word p -> HasFlag lock'.heap.word p) ∧
      HasFlag lock'.heap.word lock'.tail ∧
      forall p, place'.queued? = some p -> HasFlag lock'.heap.word p := by
  have touched : forall p, (lock.heap.touch p).word = lock.heap.word := by
    intro p
    unfold Heap.touch
    split <;> rfl
  have idle : forall {word : Addr -> UInt32} p, (none : Option Addr) = some p -> HasFlag word p := by
    rintro word p ⟨⟩
  cases effect with
  | silent => exact ⟨fun _ flag => flag, tail, own⟩
  | allocates => exact ⟨fun _ flag => flag, tail, idle⟩
  | initialises node =>
      have stored := fun p (flag : HasFlag lock.heap.word p) => flag.store node (Or.inr rfl)
      refine ⟨stored, stored _ tail, ?_⟩
      rintro p ⟨⟩
      exact Or.inr (Function.update_self ..)
  | enqueues node =>
      refine ⟨fun _ flag => flag, own node rfl, ?_⟩
      rintro p ⟨⟩
      exact tail
  | finds_locked node prevNode =>
      rw [touched]
      exact ⟨fun _ flag => flag, tail, own⟩
  | finds_unlocked node prevNode =>
      rw [touched]
      exact ⟨fun _ flag => flag, tail, own⟩
  | frees node prevNode =>
      rw [Heap.free_word]
      exact ⟨fun _ flag => flag, tail, idle⟩
  | acquires => exact ⟨fun _ flag => flag, tail, idle⟩
  | reads_head => exact ⟨fun _ flag => flag, tail, idle⟩
  | releases node head =>
      have stored : forall p, HasFlag lock.heap.word p ->
          HasFlag (lock.heap.storeThrough head ClhNode.unlocked).word p := by
        intro p flag
        cases head with
        | none => exact flag
        | some q => exact flag.store q (Or.inl rfl)
      exact ⟨stored, stored _ tail, idle⟩

theorem run_hasFlag [DecidableEq Tid] [DecidableEq Addr] {autolock : Bool}
    {trace : List (Tid × ClhEvent)} {s : Machine Tid (ClhLock Addr) (ClhThread Addr)}
    (run : (system autolock).Run TransitionSystem.unguarded trace s) :
    HasFlag s.shared.heap.word s.shared.tail ∧
      forall t p, (stage (s.thread t).pc).queued? = some p -> HasFlag s.shared.heap.word p := by
  refine run.invariant (fun _ s => HasFlag s.shared.heap.word s.shared.tail ∧
    forall t p, (stage (s.thread t).pc).queued? = some p -> HasFlag s.shared.heap.word p) ?_ ?_
  · rintro s ⟨⟨word, p, shared⟩, threads⟩
    refine ⟨?_, fun t p' queued => ?_⟩
    · rw [shared]
      exact Or.inl (Function.update_self ..)
    · rw [(threads t).1] at queued
      cases queued
  · rintro _ s label s' ⟨tail, flags⟩ moved _
    rcases Program.system_next moved with ⟨action, lock', l', stepped, rfl⟩
    rcases (step_effect (show Clh.step autolock label.1 _ _ _ = _ from stepped)).hasFlag tail
      (flags label.1) with ⟨kept, tail', own⟩
    refine ⟨tail', (Function.forall_update_iff s.thread fun _ l => forall p,
      (stage l.pc).queued? = some p -> HasFlag lock'.heap.word p).mpr ⟨own, fun u _ p queued => ?_⟩⟩
    exact kept p (flags u p queued)

/-! ## Every run -/

/-- Only a thread that has seen its predecessor's node unlocked goes on, and the node stays so. -/
theorem Glob.passed_unlocked {g : Ghost Tid Addr} {lock : ClhLock Addr} (global : Glob g lock)
    {t : Tid} {node p : Addr} (here : g.q.At t (.granted node p))
    (flag : HasFlag lock.heap.word p) : lock.heap.word p = ClhNode.unlocked := by
  rcases here with ⟨ticket, freed, rfl, _⟩
  have role := global.role_node (Nat.le_of_eq freed) ticket.hasTicket.lt_length.le
  refine flag.resolve_right fun locked => ?_
  exact (global.queued_word _ _ role).mp locked rfl

/-- No thread whose predecessor's node is unlocked, and no thread that has the
lock, is ever held, and a thread is disarmed whenever it is outside `lock`. -/
theorem granted_runnable [DecidableEq Tid] [DecidableEq Addr] (autolock : Bool)
    (trace : List (Tid × ClhEvent)) (s : Machine Tid (ClhLock Addr) (ClhThread Addr))
    (run : (system autolock).Run TransitionSystem.unguarded trace s) :
    (forall t, Entitled s.shared (s.thread t) ->
      (s.thread t).page.held s.shared.heap.word = false) ∧
      forall t, (s.thread t).pc.inLock = false -> (s.thread t).page.watchMem = none := by
  rcases (threadInvariant autolock).run run with ⟨g, _, global, locals⟩
  refine ⟨fun t entitled => ?_, fun t outside => (locals t).2.returned outside⟩
  rcases locals t with ⟨placed, ok⟩
  apply ok.runnable
  intro p waits
  rcases entitled with ⟨p', waits', free⟩ | passed
  · rw [waits'] at waits
    cases waits
    exact free
  · have flag := (run_hasFlag run).2 t p
    have here := placed.here
    cases at_pc : (s.thread t).pc <;> rw [at_pc] at waits passed here flag <;> cases waits <;>
      first
      | exact global.passed_unlocked here (flag rfl)
      | cases passed

/-- The second thread has armed its page when the first unlocks. -/
theorem granted_runnable_waiting :
    let s := ((program Nat Nat true).play (handover.take 20) (fresh Nat 0)).1
    Entitled s.shared (s.thread 1) ∧ (s.thread 1).page.watchMem = some 1 ∧
      (s.thread 1).page.held s.shared.heap.word = false :=
  have entitled := Or.inl ⟨1, by decide, by decide⟩
  ⟨entitled, by decide, (granted_runnable true _ _
    (Program.run_play (fresh_init 0) (handover.take 20) (by decide))).1 1 entitled⟩

end Clh

end UserLocks
end Autolock
