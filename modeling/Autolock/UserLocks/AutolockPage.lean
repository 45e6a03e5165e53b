import Mathlib.Data.Option.Basic

namespace Autolock
namespace UserLocks

/-!
# The page that a thread shares with the kernel

Before a thread waits it may store an address, an expected value and a
polarity in its page; the scheduler then passes the thread over as long as the
word at that address has not changed as described.  Every store is a separate
step of the thread, and the kernel may look between any two of them.

Addresses are left abstract: each lock has its own type of watchable words and
says how the current memory is read at such a word.
-/

/-- Return values of the lock functions. -/
def iSuccess : Int := 0
def iFailure : Int := 1

/-- `struct kernel_autolock_abi`.  A `watchMem` of `none` is the NULL pointer. -/
structure KernelAutolockAbi (Addr : Type) where
  watchMem : Option Addr
  watchFor : UInt32
  watchNeq : UInt32
  deriving DecidableEq, Repr

namespace KernelAutolockAbi

variable {Addr : Type}

def autolockSetKernelWatchMem (page : KernelAutolockAbi Addr) (p : Option Addr) :
    KernelAutolockAbi Addr :=
  { page with watchMem := p }

def autolockSetKernelWatchFor (page : KernelAutolockAbi Addr) (v : UInt32) :
    KernelAutolockAbi Addr :=
  { page with watchFor := v }

def autolockSetKernelWatchNeq (page : KernelAutolockAbi Addr) (v : UInt32) :
    KernelAutolockAbi Addr :=
  { page with watchNeq := v }

/-- The kernel's decision not to schedule the owner of the page, given the
value that each watched word has at that moment. -/
def held (read : Addr -> UInt32) (page : KernelAutolockAbi Addr) : Bool :=
  match page.watchMem with
  | none => false
  | some p =>
      let ret := page.watchFor != read p
      if page.watchNeq == 0 then ret else !ret

@[simp] theorem held_disarmed {read : Addr -> UInt32} {page : KernelAutolockAbi Addr}
    (disarmed : page.watchMem = none) : page.held read = false := by
  simp [held, disarmed]

/-- With polarity zero a thread whose word has the expected value may run. -/
theorem held_expected {read : Addr -> UInt32} {page : KernelAutolockAbi Addr} {p : Addr}
    (armed : page.watchMem = some p) (polarity : page.watchNeq = 0)
    (expected : read p = page.watchFor) : page.held read = false := by
  simp [held, armed, polarity, expected]

/-- The watched word, if there is one, has the expected value. -/
def Answered (read : Addr -> UInt32) (page : KernelAutolockAbi Addr) : Prop :=
  match page.watchMem with
  | none => True
  | some p => read p = page.watchFor

instance (read : Addr -> UInt32) (page : KernelAutolockAbi Addr) :
    Decidable (page.Answered read) := by
  unfold Answered
  split <;> infer_instance

theorem Answered.of_disarmed {read : Addr -> UInt32} {page : KernelAutolockAbi Addr}
    (disarmed : page.watchMem = none) : page.Answered read := by
  simp [Answered, disarmed]

theorem Answered.of_expected {read : Addr -> UInt32} {page : KernelAutolockAbi Addr} {p : Addr}
    (armed : page.watchMem = some p) (expected : read p = page.watchFor) : page.Answered read := by
  simp [Answered, armed, expected]

/-- With polarity zero the kernel holds a thread exactly until its word has the expected value. -/
theorem held_iff_answered {read : Addr -> UInt32} {page : KernelAutolockAbi Addr}
    (polarity : page.watchMem = none ∨ page.watchNeq = 0) :
    page.held read = false <-> page.Answered read := by
  cases armed : page.watchMem with
  | none => exact iff_of_true (held_disarmed armed) (.of_disarmed armed)
  | some p =>
      have zero := polarity.resolve_left (by rw [armed]; exact nofun)
      simp only [held, Answered, armed, zero, beq_self_eq_true, if_true, bne_eq_false_iff_eq]
      exact eq_comm

end KernelAutolockAbi

end UserLocks
end Autolock
