import Autolock.UserLocks.AutolockPage

namespace Autolock
namespace UserLocks

/-!
# Arming a page with the address first

Two of the locks store the address before the value and the polarity that go
with it.  Between these stores the page watches the right word with a value or
a polarity that an earlier wait has left behind.  Once the word has the value
that the thread waits for, the kernel may then still pass the thread over; the
first two stores decide whether it does.
-/

/-- How far the page is armed: which of the three stores have been made. -/
inductive ArmStage where
  | disarmed
  | addressed
  | expecting
  | armed
  deriving DecidableEq, Repr

namespace KernelAutolockAbi

variable {Addr : Type}

/-- The kernel's decision on an armed page whose watched word has the value `v`. -/
def wouldHold (page : KernelAutolockAbi Addr) (v : UInt32) : Bool :=
  if page.watchNeq == 0 then page.watchFor != v else !(page.watchFor != v)

/-- What the page contains once it is armed so far for the word `p` and the value `v`. -/
def At (p : Addr) (v : UInt32) (page : KernelAutolockAbi Addr) : ArmStage -> Prop
  | .disarmed => page.watchMem = none
  | .addressed => page.watchMem = some p
  | .expecting => page.watchMem = some p ∧ page.watchFor = v
  | .armed => page.watchMem = some p ∧ page.watchFor = v ∧ page.watchNeq = 0

/-- What an earlier wait has left in the page does not hold the thread back
when its word has the value `v`. -/
def Harmless (v : UInt32) (page : KernelAutolockAbi Addr) : ArmStage -> Prop
  | .addressed => page.wouldHold v = false
  | .expecting => page.watchNeq = 0
  | .disarmed | .armed => True

instance (v : UInt32) (page : KernelAutolockAbi Addr) (stage : ArmStage) :
    Decidable (page.Harmless v stage) := by
  cases stage <;> unfold Harmless <;> infer_instance

section arming

variable {p : Addr} {v : UInt32} {page : KernelAutolockAbi Addr} {read : Addr -> UInt32}

theorem held_armed (armed : page.watchMem = some p) :
    page.held read = page.wouldHold (read p) := by
  simp only [held, armed, wouldHold]

/-- The polarity alone decides once the expected value is there. -/
theorem wouldHold_watchFor : page.wouldHold page.watchFor = false <-> page.watchNeq = 0 := by
  unfold wouldHold
  by_cases zero : page.watchNeq = 0
  · simp [zero]
  · simp [zero]

/-- A thread whose word has its value may run exactly if its page is harmless. -/
theorem At.held_iff {stage : ArmStage} (here : page.At p v stage) (granted : read p = v) :
    page.held read = false <-> page.Harmless v stage := by
  cases stage with
  | disarmed => exact iff_of_true (held_disarmed here) trivial
  | addressed => rw [held_armed here, granted, Harmless]
  | expecting =>
      rcases here with ⟨address, rfl⟩
      rw [held_armed address, granted, Harmless, wouldHold_watchFor]
  | armed =>
      rcases here with ⟨address, value, polarity⟩
      exact iff_of_true (held_expected address polarity (granted.trans value.symm)) trivial

theorem At.expect (here : page.At p v .addressed) :
    (page.autolockSetKernelWatchFor v).At p v .expecting :=
  ⟨here, rfl⟩

theorem At.arm (here : page.At p v .expecting) :
    (page.autolockSetKernelWatchNeq 0).At p v .armed :=
  ⟨here.1, here.2, rfl⟩

end arming

end KernelAutolockAbi

/-! ## Threads that wait for a word to have a value -/

/-- For a thread of some lock: its page, and the word and the value that it
waits for with the page armed so far. -/
structure Watching (Local Addr : Type) where
  page : Local -> KernelAutolockAbi Addr
  watch : Local -> Option (Addr × UInt32 × ArmStage)

namespace Watching

variable {Local Addr : Type} (watching : Watching Local Addr)

/-- The page is armed as far as the thread has come; it is disarmed if the thread does not wait. -/
def PageOk (l : Local) : Prop :=
  match watching.watch l with
  | none => (watching.page l).watchMem = none
  | some (p, v, stage) => (watching.page l).At p v stage

/-- The thread waits, and its word has the value that it waits for. -/
def Granted (read : Addr -> UInt32) (l : Local) : Prop :=
  exists p v stage, watching.watch l = some (p, v, stage) ∧ read p = v

/-- If the thread is granted what it waits for, its page does no harm. -/
def HarmlessIn (read : Addr -> UInt32) (l : Local) : Prop :=
  forall p v stage, watching.watch l = some (p, v, stage) -> read p = v ->
    (watching.page l).Harmless v stage

variable {watching} {read : Addr -> UInt32} {l : Local}

/-- A page in its proper state keeps its owner from running once it is granted
what it waits for exactly if what is left in the page does harm. -/
theorem PageOk.held_iff (ok : watching.PageOk l) :
    (watching.Granted read l -> (watching.page l).held read = false) <->
      watching.HarmlessIn read l := by
  unfold PageOk at ok
  constructor
  · intro runnable p v stage waits granted
    rw [waits] at ok
    exact (ok.held_iff granted).mp (runnable ⟨p, v, stage, waits, granted⟩)
  · rintro harmless ⟨p, v, stage, waits, granted⟩
    rw [waits] at ok
    exact (ok.held_iff granted).mpr (harmless p v stage waits granted)

theorem PageOk.disarmed (ok : watching.PageOk l) (idle : watching.watch l = none) :
    (watching.page l).watchMem = none := by
  unfold PageOk at ok
  rwa [idle] at ok

theorem harmlessIn_of_none (idle : watching.watch l = none) : watching.HarmlessIn read l := by
  intro p v stage waits
  rw [idle] at waits
  cases waits

/-- A page without an address, or with all that belongs to it, does no harm. -/
theorem harmlessIn_of_stage {p : Addr} {v : UInt32} {stage : ArmStage}
    (waits : watching.watch l = some (p, v, stage)) (whole : stage = .disarmed ∨ stage = .armed) :
    watching.HarmlessIn read l := by
  intro p' v' stage' waits' _
  rw [waits] at waits'
  cases waits'
  rcases whole with rfl | rfl <;> trivial

theorem harmlessIn_iff {p : Addr} {v : UInt32} {stage : ArmStage}
    (waits : watching.watch l = some (p, v, stage)) :
    watching.HarmlessIn read l <-> (read p = v -> (watching.page l).Harmless v stage) := by
  constructor
  · intro harmless granted
    exact harmless p v stage waits granted
  · intro harmless p' v' stage' waits' granted
    rw [waits] at waits'
    cases waits'
    exact harmless granted

end Watching

end UserLocks
end Autolock
