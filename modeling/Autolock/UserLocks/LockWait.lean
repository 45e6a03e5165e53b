namespace Autolock
namespace UserLocks

/-!
# The counter of a bounded waiting loop

`lock_wait` counts from the negated bound up and leaves the loop when the
incremented counter is nonzero.  The counter is nonzero after the first round
already unless the bound is one, so a bounded loop waits once.
-/

/-- `I_tmp_wait_iters_` on entry to the loop. -/
def lockWaitStart (waitIters : UInt32) : UInt32 := -waitIters

/-- After a failed recheck: the counter of the next round, `none` when the loop is left. -/
def lockWaitNext (tmpWaitIters : UInt32) : Option UInt32 :=
  if tmpWaitIters + 1 ≠ 0 then none else some (tmpWaitIters + 1)

/-- For every bound but one the loop is left after a single round. -/
theorem lockWaitNext_start {waitIters : UInt32} (many : waitIters ≠ 1) :
    lockWaitNext (lockWaitStart waitIters) = none := by
  have nonzero : -waitIters + 1 ≠ 0 := by
    intro wrapped
    apply many
    have := congrArg (· + waitIters) wrapped
    grind
  simp [lockWaitNext, lockWaitStart, nonzero]

end UserLocks
end Autolock
