import Mathlib.Logic.Basic

namespace Autolock
namespace UserLocks

/-!
# Setting up the page that a thread shares with the kernel

A thread keeps the address of its page in a thread-local pointer.  The set-up
makes two system calls, one for a file descriptor and one that maps the page,
and takes the raw result of each: the kernel reports an error by a small
negative number, which as an address is one near the end of the address space.
-/

/-- `MAP_FAILED`, that is `(void *)-1` -/
def MAP_FAILED : UInt64 := -1

/-- `NULL` -/
def nullPointer : UInt64 := 0

/-- `autolock_init_kernel_state`: what it returns, and the pointer
`I_kernel_autolock` behind it.  `fd` and `p` are what the two system calls
would return. -/
def autolockInitKernelState (kernelAutolock : UInt64) (fd : Int32) (p : UInt64) :
    UInt64 × UInt64 :=
  if kernelAutolock ≠ nullPointer then (kernelAutolock, kernelAutolock)
  else if fd < 0 then (nullPointer, kernelAutolock)
  else if p = MAP_FAILED then (nullPointer, kernelAutolock)
  else (p, p)

/-- The pointer is returned as it is left. -/
theorem autolockInitKernelState_returns (kernelAutolock : UInt64) (fd : Int32) (p : UInt64) :
    (autolockInitKernelState kernelAutolock fd p).1 =
      (autolockInitKernelState kernelAutolock fd p).2 := by
  unfold autolockInitKernelState
  split
  · rfl
  · next null =>
      rw [not_not] at null
      split
      · exact null.symm
      · split
        · exact null.symm
        · rfl

end UserLocks
end Autolock
