import Autolock.UserLocks.KernelState
import Autolock.UserLocks.LockBase

namespace Autolock
namespace UserLocks

open Concurrency

/-!
# The lock whose waiting loop is a restartable sequence

Behind a fast path in C the waiting loop is written in assembly, so that the
backoff ends as soon as the kernel schedules the thread again: an abort takes it
to a handler that tries the lock once more.  Each instruction with an effect is a
step.  The loads, exchanges and branches outside the critical section cannot be
aborted, so a load and the branch on its result are one step.

The assembly addresses the thread-local pointer `I_kernel_autolock` itself, and
the eight bytes behind it.  An abort may come at every instruction of the
critical section, as often as it likes; the descriptor that makes it possible is
not modelled.
-/

/-- Where a store of a watched address, an expected value or a polarity goes. -/
inductive WatchTarget where
  /-- `%fs:I_kernel_autolock@tpoff` and so many bytes -/
  | threadLocal (offset : Nat)
  /-- the page at this address -/
  | page (address : UInt64)
  deriving DecidableEq, Repr

/-- The instructions that are there twice: in the loop and in the abort handler. -/
inductive RseqPath where
  | loop
  | abort
  deriving DecidableEq, Repr

/-- The next step of a thread. -/
inductive RseqPc where
  | outside
  | tryLoad (caller : LockBaseCaller)
  | tryExchange (caller : LockBaseCaller)
  | initKernelState
  | storeFor
  | rdtsc
  -- the critical section
  | storeMem
  | leal
  | movzbl
  | pause
  | decl
  | jg (again : Bool)
  -- behind it, and in the abort handler
  | test (path : RseqPath)
  | disarm (path : RseqPath)
  | xchg (path : RseqPath)
  | holding
  deriving DecidableEq, Repr

namespace RseqPc

/-- From the return of a successful `lock` or `trylock` to the store that unlocks. -/
def holdsLock : RseqPc -> Bool
  | .holding => true
  | _ => false

/-- Between label 1 and label 2. -/
def inCriticalSection : RseqPc -> Bool
  | .storeMem | .leal | .movzbl | .pause | .decl | .jg _ => true
  | _ => false

end RseqPc

/-- What belongs to one thread: the thread-local pointer `I_kernel_autolock` and
the eight bytes behind it, the pages, two registers, and the pointer as it was
when the thread last called `lock`. -/
structure RseqThread where
  pc : RseqPc
  kernelAutolock : UInt64
  behind : UInt64
  pages : UInt64 -> KernelAutolockAbi UInt64
  eax : UInt32
  edx : UInt32
  found : UInt64

/-- The client's calls, the results of the two system calls of the set-up, the
clock, and an abort.  `elsewhere` stands for what a thread does that is not
inside a call: it may be set up, and use other locks. -/
inductive RseqAction where
  | elsewhere (kernelAutolock : UInt64)
  | callLock
  | callTrylock
  | callUnlock
  | run
  | created (fd : Int32) (p : UInt64)
  | time (now : UInt64)
  | abort
  deriving DecidableEq, Repr

inductive RseqEvent where
  | internal
  /-- a store into the triple, and the pointer at that time -/
  | watchStored (target : WatchTarget) (kernelAutolock : UInt64)
  /-- the pointer at the call and at the return, and the page it then points to -/
  | lockReturned (ret : Int) (found left : UInt64) (page : KernelAutolockAbi UInt64)
  | trylockReturned (ret : Int)
  | unlocked (ret : Int)
  deriving DecidableEq, Repr

namespace RseqAutolock

/-- `I_UNLOCKED` and `I_LOCKED`, which the assembly relies on. -/
def unlocked : UInt32 := 1
def locked : UInt32 := 0

/-- A thread returns from `lock` as the holder. -/
def enter (l : RseqThread) : RseqThread × RseqEvent :=
  ({ l with pc := .holding },
    .lockReturned iSuccess l.found l.kernelAutolock (l.pages l.kernelAutolock))

def succeedTry (l : RseqThread) : LockBaseCaller -> RseqThread × RseqEvent
  | .trylock => ({ l with pc := .holding }, .trylockReturned iSuccess)
  | .lock => enter l

def failTry (l : RseqThread) : LockBaseCaller -> RseqThread × RseqEvent
  | .trylock => ({ l with pc := .outside }, .trylockReturned iFailure)
  | .lock => ({ l with pc := .initKernelState }, .internal)

/-- One step of one thread; `lockMem` is the address of the lock, `mem` its word. -/
def step (lockMem : UInt64) (action : RseqAction) (mem : UInt32) (l : RseqThread) :
    Option (UInt32 × RseqThread × RseqEvent) :=
  match l.pc, action with
  | .outside, .elsewhere kernelAutolock | .holding, .elsewhere kernelAutolock =>
      some (mem, { l with kernelAutolock := kernelAutolock }, .internal)
  | .outside, .callLock =>
      some (mem, { l with pc := .tryLoad .lock, found := l.kernelAutolock }, .internal)
  | .outside, .callTrylock => some (mem, { l with pc := .tryLoad .trylock }, .internal)
  -- `I_user_autolock_trylock`
  | .tryLoad caller, .run =>
      if mem ≠ locked then some (mem, { l with pc := .tryExchange caller }, .internal)
      else some (mem, failTry l caller)
  | .tryExchange caller, .run =>
      if mem ≠ locked then some (locked, succeedTry l caller) else some (locked, failTry l caller)
  -- the result of `autolock_init_kernel_state` is not used
  | .initKernelState, .created fd p =>
      some (mem, { l with
        pc := .storeFor
        kernelAutolock := (autolockInitKernelState l.kernelAutolock fd p).2 }, .internal)
  -- `movq $1, %fs:I_kernel_autolock@tpoff+8`
  | .storeFor, .run =>
      some (mem, { l with pc := .rdtsc, behind := 1 },
        .watchStored (.threadLocal 8) l.kernelAutolock)
  | .rdtsc, .time now =>
      some (mem, { l with
        pc := .storeMem
        eax := now.toUInt32
        edx := (now >>> 32).toUInt32 }, .internal)
  -- `movq lock_mem, %fs:I_kernel_autolock@tpoff+0`
  | .storeMem, .run =>
      some (mem, { l with pc := .leal, kernelAutolock := lockMem },
        .watchStored (.threadLocal 0) l.kernelAutolock)
  | .leal, .run => some (mem, { l with pc := .movzbl, eax := l.eax + l.eax + 1 }, .internal)
  | .movzbl, .run => some (mem, { l with pc := .pause, edx := l.eax &&& 255 }, .internal)
  | .pause, .run => some (mem, { l with pc := .decl }, .internal)
  -- `jg` jumps if the result is positive and the decrement has not overflowed
  | .decl, .run =>
      some (mem, { l with pc := .jg (decide (1 < l.edx.toBitVec.toInt)), edx := l.edx - 1 },
        .internal)
  | .jg again, .run => some (mem, { l with pc := if again then .pause else .test .loop }, .internal)
  -- `movl`, `testl` and `jz 1b`
  | .test path, .run =>
      if mem = locked then some (mem, { l with pc := .storeMem, edx := mem }, .internal)
      else some (mem, { l with pc := .disarm path, edx := mem }, .internal)
  -- `movq $0, %fs:I_kernel_autolock@tpoff+0`
  | .disarm path, .run =>
      some (mem, { l with pc := .xchg path, kernelAutolock := nullPointer },
        .watchStored (.threadLocal 0) l.kernelAutolock)
  -- `xorl`, `xchg`, `testl`; then `jz 1b`, or `jnz 8b` and `jmp 1b`
  | .xchg _, .run =>
      if mem = locked then some (locked, { l with pc := .storeMem, edx := mem }, .internal)
      else some (locked, enter { l with edx := mem })
  | .holding, .callUnlock =>
      some (unlocked, { l with pc := .outside }, .unlocked iSuccess)
  | pc, .abort =>
      if pc.inCriticalSection then some (mem, { l with pc := .test .abort }, .internal) else none
  | _, _ => none

/-- The lock at an address as a program of its threads. -/
def program (Tid : Type) (lockMem : UInt64) :
    Program Tid UInt32 RseqThread RseqAction RseqEvent where
  step := fun _ => step lockMem

/-- After `I_user_autolock_init`: the lock is free, every thread is outside, and
all pages are disarmed.  A thread may have been set up or not. -/
def init {Tid : Type} (s : Machine Tid UInt32 RseqThread) : Prop :=
  s.shared = unlocked ∧ forall t, (s.thread t).pc = .outside ∧
    forall address, ((s.thread t).pages address).watchMem = none

abbrev system (Tid : Type) [DecidableEq Tid] (lockMem : UInt64) :
    TransitionSystem (Machine Tid UInt32 RseqThread) (Tid × RseqEvent) :=
  (program Tid lockMem).system init

/-- What the mutual exclusion specification sees of a step. -/
def observe {Tid : Type} : Tid × RseqEvent -> List (LockMove Tid)
  | (t, .lockReturned ..) => [.acquire t]
  | (t, .trylockReturned ret) => if ret = iSuccess then [.acquire t] else []
  | (t, .unlocked _) => [.release t]
  | _ => []

/-- What the caller of `lock` relies on: what arms goes into the page that the
pointer points to, and the pointer is returned as it was, the page disarmed. -/
def InPage : RseqEvent -> Prop
  | .watchStored target kernelAutolock => target = .page kernelAutolock
  | .lockReturned _ found left page => left = found ∧ page.watchMem = none
  | _ => True

/-- A call of `lock` has got into the assembly and stores something of the triple. -/
def Arms : RseqEvent -> Prop
  | .watchStored .. => True
  | _ => False

instance : DecidablePred InPage := by
  intro event
  unfold InPage
  split <;> infer_instance

instance : DecidablePred Arms := by
  intro event
  unfold Arms
  split <;> infer_instance

end RseqAutolock

end UserLocks
end Autolock
