import Autolock.UserLocks.Clh

namespace Autolock
namespace UserLocks

open Concurrency

/-!
# What one step of the CLH lock does

Ten kinds of step matter to the queue and the memory.  The invariants are
proved from this list and never unfold the step function again.  The shared
page is governed by the program counter alone.
-/

namespace Clh

variable {Tid Addr : Type}

/-! ## What one step does -/

/-- Where a thread is, as far as the queue is concerned. -/
inductive Stage (Addr : Type) where
  | apart
  | preparing (node : Addr) (initialised : Bool)
  | waiting (node prevNode : Addr)
  | granted (node prevNode : Addr)
  | entered (node : Addr)
  | holding (node : Addr)
  | releasing (node : Addr) (head : Option Addr)

def stage : ClhPc Addr -> Stage Addr
  | .outside | .nodeNew => .apart
  | .nodeInit node => .preparing node false
  | .exchangeTail node => .preparing node true
  | .testPrev node prevNode | .setWatchFor node prevNode | .setWatchNeq node prevNode
  | .setWatchMem node prevNode | .testHead node prevNode | .nextInQueue node prevNode
  | .pausing node prevNode _ | .yielding node prevNode => .waiting node prevNode
  | .disarm node prevNode | .nodeFree node prevNode => .granted node prevNode
  | .saveHead node => .entered node
  | .holding node | .unlockLoadHead node => .holding node
  | .unlockStore node head => .releasing node head

/-- The kinds of step, with what each does to the lock and to the stage of its thread. -/
inductive StepEffect [DecidableEq Addr] (t : Tid) (lock : ClhLock Addr) :
    ClhLock Addr -> Stage Addr -> Stage Addr -> ClhEvent -> Prop
  | silent {event : ClhEvent} (unseen : observe (t, event) = []) (place : Stage Addr) :
      StepEffect t lock lock place place event
  | allocates (p : Addr) (fresh : lock.heap.live p = false) :
      StepEffect t lock { lock with heap := lock.heap.malloc p fresh } .apart
        (.preparing p false) .internal
  | initialises (node : Addr) :
      StepEffect t lock { lock with heap := lock.heap.store node ClhNode.locked }
        (.preparing node false) (.preparing node true) .internal
  | enqueues (node : Addr) :
      StepEffect t lock { lock with tail := node } (.preparing node true)
        (.waiting node lock.tail) .exchanged
  | finds_locked (node prevNode : Addr) (taken : lock.heap.word prevNode = ClhNode.locked) :
      StepEffect t lock { lock with heap := lock.heap.touch prevNode } (.waiting node prevNode)
        (.waiting node prevNode) .internal
  | finds_unlocked (node prevNode : Addr) (free : lock.heap.word prevNode ≠ ClhNode.locked) :
      StepEffect t lock { lock with heap := lock.heap.touch prevNode } (.waiting node prevNode)
        (.granted node prevNode) .internal
  | frees (node prevNode : Addr) :
      StepEffect t lock { lock with heap := lock.heap.free prevNode } (.granted node prevNode)
        (.entered node) .internal
  | acquires (node : Addr) :
      StepEffect t lock { lock with head := some node } (.entered node) (.holding node)
        (.lockReturned iSuccess)
  | reads_head (node : Addr) :
      StepEffect t lock lock (.holding node) (.releasing node lock.head) .internal
  | releases (node : Addr) (head : Option Addr) :
      StepEffect t lock { lock with heap := lock.heap.storeThrough head ClhNode.unlocked }
        (.releasing node head) .apart .unlocked

@[simp] theorem stage_hasLock (autolock : Bool) (node prevNode : Addr) :
    stage (hasLock autolock node prevNode) = .granted node prevNode := by
  cases autolock <;> rfl

/-- A read of `prev_node->mem` keeps the thread waiting or lets it go on. -/
theorem loadPrev_effect [DecidableEq Addr] {t : Tid} {lock lock' : ClhLock Addr}
    {l l' : ClhThread Addr} {event : ClhEvent} {node prevNode : Addr}
    {whenLocked whenUnlocked : ClhPc Addr}
    (loaded : loadPrev lock l prevNode whenLocked whenUnlocked = some (lock', l', event))
    (before : stage l.pc = .waiting node prevNode)
    (afterLocked : stage whenLocked = .waiting node prevNode)
    (afterUnlocked : stage whenUnlocked = .granted node prevNode) :
    StepEffect t lock lock' (stage l.pc) (stage l'.pc) event := by
  cases loaded
  rw [before]
  dsimp only
  split
  · next taken =>
      rw [afterLocked]
      exact .finds_locked node prevNode taken
  · next free =>
      rw [afterUnlocked]
      exact .finds_unlocked node prevNode free

theorem step_effect [DecidableEq Addr] {autolock : Bool} {t : Tid} {action : ClhAction Addr}
    {lock lock' : ClhLock Addr} {l l' : ClhThread Addr} {event : ClhEvent}
    (stepped : step autolock t action lock l = some (lock', l', event)) :
    StepEffect t lock lock' (stage l.pc) (stage l'.pc) event := by
  rcases l with ⟨pc, page⟩
  cases pc <;> cases action <;> simp only [step, reduceCtorEq] at stepped
  case nodeNew.malloc p =>
    split at stepped
    · next fresh =>
        cases stepped
        exact .allocates p fresh
    · cases stepped
  case nodeInit.run node =>
    cases stepped
    exact .initialises node
  case exchangeTail.run node =>
    cases stepped
    exact .enqueues node
  case testPrev.run node prevNode =>
    refine loadPrev_effect stepped rfl ?_ rfl
    cases autolock <;> rfl
  case nextInQueue.run node prevNode =>
    exact loadPrev_effect stepped rfl rfl (stage_hasLock autolock node prevNode)
  case yielding.run node prevNode =>
    exact loadPrev_effect stepped rfl rfl (stage_hasLock autolock node prevNode)
  case pausing.run node prevNode tmpWaitIters =>
    refine loadPrev_effect stepped rfl ?_ (stage_hasLock autolock node prevNode)
    cases lockWaitNext tmpWaitIters <;> rfl
  case nodeFree.run node prevNode =>
    cases stepped
    exact .frees node prevNode
  case saveHead.run node =>
    cases stepped
    exact .acquires node
  case unlockLoadHead.run node =>
    cases stepped
    exact .reads_head node
  case unlockStore.run node head =>
    cases stepped
    exact .releases node head
  -- The calls, the page stores and the test of `lock->head`.
  all_goals try (split at stepped)
  all_goals cases stepped
  all_goals exact .silent rfl _

/-! ## The shared page -/

/-- The page is armed for `prevNode`, in the configuration that arms pages. -/
def ArmedFor (autolock : Bool) (page : KernelAutolockAbi Addr) (prevNode : Addr) : Prop :=
  (autolock = true -> page.watchMem = some prevNode ∧ page.watchFor = ClhNode.unlocked ∧
    page.watchNeq = 0) ∧
  (autolock = false -> page.watchMem = none)

/-- What the page of a thread contains at each program counter. -/
def PageOk (autolock : Bool) (l : ClhThread Addr) : Prop :=
  match l.pc with
  | .setWatchFor _ _ => autolock = true ∧ l.page.watchMem = none
  | .setWatchNeq _ _ =>
      autolock = true ∧ l.page.watchMem = none ∧ l.page.watchFor = ClhNode.unlocked
  | .setWatchMem _ _ =>
      autolock = true ∧ l.page.watchMem = none ∧ l.page.watchFor = ClhNode.unlocked ∧
        l.page.watchNeq = 0
  | .testHead _ prevNode | .nextInQueue _ prevNode | .pausing _ prevNode _
  | .yielding _ prevNode => ArmedFor autolock l.page prevNode
  | .disarm _ prevNode => autolock = true ∧ ArmedFor autolock l.page prevNode
  | _ => l.page.watchMem = none

theorem pageOk_hasLock {autolock : Bool} {page : KernelAutolockAbi Addr} {prevNode : Addr}
    (armed : ArmedFor autolock page prevNode) (node : Addr) :
    PageOk autolock ⟨hasLock autolock node prevNode, page⟩ := by
  cases autolock with
  | false => exact armed.2 rfl
  | true => exact ⟨rfl, armed⟩

theorem loadPrev_pageOk [DecidableEq Addr] {autolock : Bool} {lock lock' : ClhLock Addr}
    {l l' : ClhThread Addr} {event : ClhEvent} {prevNode : Addr}
    {whenLocked whenUnlocked : ClhPc Addr}
    (loaded : loadPrev lock l prevNode whenLocked whenUnlocked = some (lock', l', event))
    (okLocked : PageOk autolock ⟨whenLocked, l.page⟩)
    (okUnlocked : PageOk autolock ⟨whenUnlocked, l.page⟩) : PageOk autolock l' := by
  cases loaded
  split
  · exact okLocked
  · exact okUnlocked

/-- A step keeps what the program counter says about the thread's page. -/
theorem step_pageOk [DecidableEq Addr] {autolock : Bool} {t : Tid} {action : ClhAction Addr}
    {lock lock' : ClhLock Addr} {l l' : ClhThread Addr} {event : ClhEvent}
    (stepped : step autolock t action lock l = some (lock', l', event))
    (ok : PageOk autolock l) : PageOk autolock l' := by
  rcases l with ⟨pc, page⟩
  cases pc <;> cases action <;> simp only [step, reduceCtorEq] at stepped
  case testPrev.run node prevNode =>
    refine loadPrev_pageOk stepped ?_ ok
    cases autolock with
    | false => exact ⟨fun configured => absurd configured (by decide), fun _ => ok⟩
    | true => exact ⟨rfl, ok⟩
  case setWatchFor.run node prevNode =>
    cases stepped
    exact ⟨ok.1, ok.2, rfl⟩
  case setWatchNeq.run node prevNode =>
    cases stepped
    exact ⟨ok.1, ok.2.1, ok.2.2, rfl⟩
  case setWatchMem.run node prevNode =>
    cases stepped
    exact ⟨fun _ => ⟨rfl, ok.2.2⟩, fun notConfigured => absurd ok.1 (by simp [notConfigured])⟩
  case nextInQueue.run node prevNode =>
    exact loadPrev_pageOk stepped ok (pageOk_hasLock ok node)
  case pausing.run node prevNode tmpWaitIters =>
    refine loadPrev_pageOk stepped ?_ (pageOk_hasLock ok node)
    cases lockWaitNext tmpWaitIters <;> exact ok
  case yielding.run node prevNode =>
    exact loadPrev_pageOk stepped ok (pageOk_hasLock ok node)
  case disarm.run node prevNode =>
    cases stepped
    rfl
  all_goals try (split at stepped)
  all_goals cases stepped
  all_goals exact ok

/-- Only a thread that waits on a node, or has just seen it unlocked, is armed,
and for that node. -/
theorem PageOk.armed_stage {autolock : Bool} {l : ClhThread Addr} (ok : PageOk autolock l)
    {p : Addr} (armed : l.page.watchMem = some p) :
    exists node, stage l.pc = .waiting node p ∨ stage l.pc = .granted node p := by
  rcases l with ⟨pc, page⟩
  have armedFor : forall prevNode, ArmedFor autolock page prevNode -> prevNode = p := by
    intro prevNode fits
    cases autolock with
    | false => exact absurd (armed.symm.trans (fits.2 rfl)) (by simp)
    | true => exact Option.some.inj ((fits.1 rfl).1.symm.trans armed)
  cases pc
  case testHead node prevNode => exact ⟨node, Or.inl (by rw [← armedFor _ ok]; rfl)⟩
  case nextInQueue node prevNode => exact ⟨node, Or.inl (by rw [← armedFor _ ok]; rfl)⟩
  case pausing node prevNode tmpWaitIters => exact ⟨node, Or.inl (by rw [← armedFor _ ok]; rfl)⟩
  case yielding node prevNode => exact ⟨node, Or.inl (by rw [← armedFor _ ok]; rfl)⟩
  case disarm node prevNode => exact ⟨node, Or.inr (by rw [← armedFor _ ok.2]; rfl)⟩
  case setWatchFor => exact absurd (armed.symm.trans ok.2) (by simp)
  case setWatchNeq => exact absurd (armed.symm.trans ok.2.1) (by simp)
  case setWatchMem => exact absurd (armed.symm.trans ok.2.1) (by simp)
  all_goals exact absurd (armed.symm.trans ok) (by simp)

end Clh

end UserLocks
end Autolock
