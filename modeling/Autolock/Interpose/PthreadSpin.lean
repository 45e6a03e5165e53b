import Autolock.Concurrency.Exclusive
import Autolock.Concurrency.Threads

namespace Autolock
namespace Interpose

open Concurrency

/-!
# A spin lock in the place of a mutex

Mutexes are often initialised by zeroing their memory, which a spin lock need not
take for its unlocked state.  So the first call initialises it: the word behind
the spin lock tells whether that has been done, and the one behind that whether
somebody is at it.  Each access to one of the words is a step.

The spin lock itself is given by the two values of its word.
-/

/-- The values that `pthread_spin_init` and `pthread_spin_lock` leave in the spin lock. -/
structure SpinValues where
  unlocked : UInt32
  locked : UInt32
  different : locked ≠ unlocked

/-- `spin`, `spin + 1` and `spin + 2` -/
structure SpinMutex where
  spin : UInt32
  isInit : UInt32
  initing : UInt32
  deriving DecidableEq, Repr

inductive SpinCall where
  | trylock
  | lock
  deriving DecidableEq, Repr

/-- The next access of a thread. -/
inductive SpinPc where
  | outside
  | readIsInit (call : SpinCall)
  | exchange (call : SpinCall)
  | spinInit (call : SpinCall)
  | storeIsInit (call : SpinCall)
  | clearIniting (call : SpinCall)
  | waitIniting (call : SpinCall)
  | operate (call : SpinCall)
  | holding
  deriving DecidableEq, Repr

inductive SpinAction where
  | call (call : SpinCall)
  | callUnlock
  | run
  deriving DecidableEq, Repr

inductive SpinEvent where
  | internal
  /-- `pthread_spin_init`, and what `spin + 1` was -/
  | initialised (isInit : UInt32)
  | returned (call : SpinCall) (ret : Int)
  | unlocked (ret : Int)
  deriving DecidableEq, Repr

namespace PthreadSpin

def EBUSY : Int := 16

/-- One step of one thread. -/
def step (values : SpinValues) (action : SpinAction) (m : SpinMutex) (pc : SpinPc) :
    Option (SpinMutex × SpinPc × SpinEvent) :=
  match pc, action with
  | .outside, .call call => some (m, .readIsInit call, .internal)
  | .readIsInit call, .run =>
      if m.isInit = 0 then some (m, .exchange call, .internal)
      else some (m, .operate call, .internal)
  | .exchange call, .run =>
      if m.initing = 0 then some ({ m with initing := 1 }, .spinInit call, .internal)
      else some ({ m with initing := 1 }, .waitIniting call, .internal)
  | .spinInit call, .run =>
      some ({ m with spin := values.unlocked }, .storeIsInit call, .initialised m.isInit)
  | .storeIsInit call, .run => some ({ m with isInit := 1 }, .clearIniting call, .internal)
  | .clearIniting call, .run => some ({ m with initing := 0 }, .operate call, .internal)
  | .waitIniting call, .run =>
      if m.initing = 0 then some (m, .operate call, .internal)
      else some (m, .waitIniting call, .internal)
  -- `pthread_spin_trylock`
  | .operate .trylock, .run =>
      if m.spin = values.unlocked then
        some ({ m with spin := values.locked }, .holding, .returned .trylock 0)
      else some (m, .outside, .returned .trylock EBUSY)
  -- `pthread_spin_lock` tries until it succeeds
  | .operate .lock, .run =>
      if m.spin = values.unlocked then
        some ({ m with spin := values.locked }, .holding, .returned .lock 0)
      else some (m, .operate .lock, .internal)
  -- `pthread_spin_unlock`
  | .holding, .callUnlock => some ({ m with spin := values.unlocked }, .outside, .unlocked 0)
  | _, _ => none

def program (Tid : Type) (values : SpinValues) :
    Program Tid SpinMutex SpinPc SpinAction SpinEvent where
  step := fun _ => step values

/-- The memory is zero, and nobody has called. -/
def zeroed {Tid : Type} (s : Machine Tid SpinMutex SpinPc) : Prop :=
  s.shared = ⟨0, 0, 0⟩ ∧ forall t, s.thread t = .outside

abbrev system (Tid : Type) [DecidableEq Tid] (values : SpinValues) :
    TransitionSystem (Machine Tid SpinMutex SpinPc) (Tid × SpinEvent) :=
  (program Tid values).system zeroed

/-! ## What is to be shown -/

variable {Tid : Type}

def IsInit : SpinEvent -> Prop
  | .initialised _ => True
  | _ => False

/-- `pthread_spin_init` is run although `spin + 1` tells that it has been. -/
def IsLateInit : SpinEvent -> Prop
  | .initialised isInit => isInit ≠ 0
  | _ => False

/-- An operation on the spin lock takes effect. -/
def IsOperation : SpinEvent -> Prop
  | .returned _ _ | .unlocked _ => True
  | _ => False

instance : DecidablePred IsInit := by
  intro event
  unfold IsInit
  split <;> infer_instance

instance : DecidablePred IsLateInit := by
  intro event
  unfold IsLateInit
  split <;> infer_instance

def inits (trace : List (Tid × SpinEvent)) : Nat :=
  trace.countP fun label => decide (IsInit label.2)

/-- The spin lock is initialised at most once, and nothing takes effect on it before that. -/
structure InitialisedOnce (trace : List (Tid × SpinEvent)) : Prop where
  once : inits trace ≤ 1
  first : forall before label, before ++ [label] <+: trace -> IsOperation label.2 ->
    0 < inits before

def holds (pc : SpinPc) : Prop :=
  pc = .holding

instance : DecidablePred holds := fun pc =>
  inferInstanceAs (Decidable (pc = .holding))

end PthreadSpin

end Interpose
end Autolock
