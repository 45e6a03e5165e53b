import Autolock.Concurrency.Heap
import Autolock.Concurrency.LockSpec
import Autolock.Concurrency.Threads
import Autolock.UserLocks.AutolockPage
import Autolock.UserLocks.LockWait

namespace Autolock
namespace UserLocks

open Concurrency

/-!
# The CLH lock `I_clh_lock_base`

A thread allocates a node, puts it at the tail of an implicit queue and waits
on the node that was at the tail before; it frees that node when it enters and
leaves its own node to its successor.  The pointers of the queue are spread
over the local variables of the waiting threads, `lock->tail` and, from the
return of `lock` to the store in `unlock`, the plain field `lock->head`.

The flag `autolock` is `I_WITH_AUTOLOCK`.
-/

namespace ClhNode

def unlocked : UInt32 := 1
def locked : UInt32 := 0
def pauseIters : UInt32 := 512

end ClhNode

/-- `I_clh_lock_base_t` with the memory that its nodes live in. -/
structure ClhLock (Addr : Type) where
  tail : Addr
  head : Option Addr
  heap : Heap Addr UInt32

/-- The next atomic step of a thread, with its local variables.  After `lock`
has returned, `node` is no longer a variable of the program: it remembers
which node the call had allocated. -/
inductive ClhPc (Addr : Type) where
  | outside
  | nodeNew
  | nodeInit (node : Addr)
  | exchangeTail (node : Addr)
  | testPrev (node prevNode : Addr)
  | setWatchFor (node prevNode : Addr)
  | setWatchNeq (node prevNode : Addr)
  | setWatchMem (node prevNode : Addr)
  | testHead (node prevNode : Addr)
  | nextInQueue (node prevNode : Addr)
  | pausing (node prevNode : Addr) (tmpWaitIters : UInt32)
  | yielding (node prevNode : Addr)
  | disarm (node prevNode : Addr)
  | nodeFree (node prevNode : Addr)
  | saveHead (node : Addr)
  | holding (node : Addr)
  | unlockLoadHead (node : Addr)
  | unlockStore (node : Addr) (head : Option Addr)
  deriving DecidableEq, Repr

namespace ClhPc

/-- Between the return of `lock` and the store of UNLOCKED in `unlock`. -/
def holdsLock {Addr : Type} : ClhPc Addr -> Bool
  | .holding _ | .unlockLoadHead _ | .unlockStore _ _ => true
  | _ => false

/-- The node that the holder allocated in its call of `lock`. -/
def heldNode? {Addr : Type} : ClhPc Addr -> Option Addr
  | .holding node | .unlockLoadHead node | .unlockStore node _ => some node
  | _ => none

end ClhPc

structure ClhThread (Addr : Type) where
  pc : ClhPc Addr
  page : KernelAutolockAbi Addr

/-- The client's calls, the steps that follow them and the allocator's choice
of an address; `elsewhere` as for every lock. -/
inductive ClhAction (Addr : Type) where
  | elsewhere (watchFor watchNeq : UInt32)
  | callLock
  | callTrylock
  | callUnlock
  | malloc (p : Addr)
  | run

inductive ClhEvent where
  | internal
  | exchanged
  | lockReturned (ret : Int)
  | trylockReturned (ret : Int)
  | unlocked
  deriving DecidableEq, Repr

namespace Clh

variable {Tid Addr : Type} [DecidableEq Addr]

/-- The label `I_clh_has_lock`. -/
def hasLock (autolock : Bool) (node prevNode : Addr) : ClhPc Addr :=
  if autolock then .disarm node prevNode else .nodeFree node prevNode

/-- Read `prev_node->mem` and go on as its value says. -/
def loadPrev (lock : ClhLock Addr) (l : ClhThread Addr) (prevNode : Addr)
    (whenLocked whenUnlocked : ClhPc Addr) : Option (ClhLock Addr × ClhThread Addr × ClhEvent) :=
  some ({ lock with heap := lock.heap.touch prevNode },
    { l with pc := if lock.heap.word prevNode = ClhNode.locked then whenLocked else whenUnlocked },
    .internal)

/-- One atomic step of one thread. -/
def step (autolock : Bool) (_ : Tid) (action : ClhAction Addr) (lock : ClhLock Addr)
    (l : ClhThread Addr) : Option (ClhLock Addr × ClhThread Addr × ClhEvent) :=
  match l.pc, action with
  | .outside, .elsewhere watchFor watchNeq =>
      some (lock, { l with page := { l.page with watchFor := watchFor, watchNeq := watchNeq } },
        .internal)
  | .outside, .callTrylock => some (lock, l, .trylockReturned iFailure)
  | .outside, .callLock => some (lock, { l with pc := .nodeNew }, .internal)
  -- `I_clh_lock_base_node_new`
  | .nodeNew, .malloc p =>
      if fresh : lock.heap.live p = false then
        some ({ lock with heap := lock.heap.malloc p fresh }, { l with pc := .nodeInit p },
          .internal)
      else none
  | .nodeInit node, .run =>
      some ({ lock with heap := lock.heap.store node ClhNode.locked },
        { l with pc := .exchangeTail node }, .internal)
  | .exchangeTail node, .run =>
      some ({ lock with tail := node }, { l with pc := .testPrev node lock.tail }, .exchanged)
  | .testPrev node prevNode, .run =>
      loadPrev lock l prevNode
        (if autolock then .setWatchFor node prevNode else .testHead node prevNode)
        (.nodeFree node prevNode)
  | .setWatchFor node prevNode, .run =>
      some (lock, ⟨.setWatchNeq node prevNode, l.page.autolockSetKernelWatchFor ClhNode.unlocked⟩,
        .internal)
  | .setWatchNeq node prevNode, .run =>
      some (lock, ⟨.setWatchMem node prevNode, l.page.autolockSetKernelWatchNeq 0⟩, .internal)
  | .setWatchMem node prevNode, .run =>
      some (lock, ⟨.testHead node prevNode, l.page.autolockSetKernelWatchMem (some prevNode)⟩,
        .internal)
  | .testHead node prevNode, .run =>
      if lock.head = some prevNode then
        some (lock, { l with pc := .nextInQueue node prevNode }, .internal)
      else
        some (lock, { l with pc := .pausing node prevNode (lockWaitStart ClhNode.pauseIters) },
          .internal)
  | .nextInQueue node prevNode, .run =>
      loadPrev lock l prevNode (.nextInQueue node prevNode) (hasLock autolock node prevNode)
  | .pausing node prevNode tmpWaitIters, .run =>
      loadPrev lock l prevNode
        (match lockWaitNext tmpWaitIters with
          | some tmpWaitIters' => .pausing node prevNode tmpWaitIters'
          | none => .yielding node prevNode)
        (hasLock autolock node prevNode)
  | .yielding node prevNode, .run =>
      loadPrev lock l prevNode (.yielding node prevNode) (hasLock autolock node prevNode)
  | .disarm node prevNode, .run =>
      some (lock, ⟨.nodeFree node prevNode, l.page.autolockSetKernelWatchMem none⟩, .internal)
  | .nodeFree node prevNode, .run =>
      some ({ lock with heap := lock.heap.free prevNode }, { l with pc := .saveHead node },
        .internal)
  | .saveHead node, .run =>
      some ({ lock with head := some node }, { l with pc := .holding node },
        .lockReturned iSuccess)
  -- `I_clh_lock_base_unlock`
  | .holding node, .callUnlock => some (lock, { l with pc := .unlockLoadHead node }, .internal)
  | .unlockLoadHead node, .run =>
      some (lock, { l with pc := .unlockStore node lock.head }, .internal)
  | .unlockStore _ head, .run =>
      some ({ lock with heap := lock.heap.storeThrough head ClhNode.unlocked },
        { l with pc := .outside }, .unlocked)
  | _, _ => none

def program (Tid Addr : Type) [DecidableEq Addr] (autolock : Bool) :
    Program Tid (ClhLock Addr) (ClhThread Addr) (ClhAction Addr) ClhEvent where
  step := step autolock

/-- `I_clh_lock_base_init`, with `p` the address of its node. -/
def lockInit (word : Addr -> UInt32) (p : Addr) : ClhLock Addr where
  tail := p
  head := none
  heap := ((Heap.empty word).malloc p rfl).store p ClhNode.unlocked

/-- `I_clh_lock_base_destroy`: what is left of the memory. -/
def destroy (lock : ClhLock Addr) : Heap Addr UInt32 :=
  lock.heap.free lock.tail

/-- The lock has been initialised in some memory and every thread is outside and disarmed. -/
def init (s : Machine Tid (ClhLock Addr) (ClhThread Addr)) : Prop :=
  (exists word p, s.shared = lockInit word p) ∧
    forall t, (s.thread t).pc = .outside ∧ (s.thread t).page.watchMem = none

/-- The initial machine over zeroed memory whose pages are fresh. -/
def fresh (Tid : Type) (p : Addr) : Machine Tid (ClhLock Addr) (ClhThread Addr) where
  shared := lockInit (fun _ => 0) p
  thread := fun _ => ⟨.outside, ⟨none, 0, 0⟩⟩

theorem fresh_init (p : Addr) : init (fresh Tid p) :=
  ⟨⟨_, p, rfl⟩, fun _ => ⟨rfl, rfl⟩⟩

abbrev system [DecidableEq Tid] (autolock : Bool) :=
  (program Tid Addr autolock).system init

/-- What the first come, first served specification sees of a step. -/
def observe : Tid × ClhEvent -> List (LockMove Tid)
  | (t, .exchanged) => [.arrive t]
  | (t, .lockReturned _) => [.acquire t]
  | (t, .unlocked) => [.release t]
  | _ => []

/-- The threads in the order in which their exchanges on `lock->tail` took effect. -/
def exchanges (trace : List (Tid × ClhEvent)) : List Tid :=
  trace.filterMap fun label => if label.2 = .exchanged then some label.1 else none

/-- The threads in the order in which `lock` returned to them. -/
def acquisitions (trace : List (Tid × ClhEvent)) : List Tid :=
  trace.filterMap fun
    | (t, .lockReturned _) => some t
    | _ => none

end Clh

end UserLocks
end Autolock
