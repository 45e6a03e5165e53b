import Mathlib.Logic.Function.Basic

namespace Autolock
namespace Concurrency

/-!
# A heap that accounts for every allocation

Memory is a word at every address together with the set of live addresses.
An access that a C program must not make (through a freed address, through
NULL, a second free) does not stop the program: it is recorded as a fault,
the way a sanitizer would report it, and the run goes on.  "No run ever
touches freed memory" is then the statement that no fault is ever recorded.

The accounting is a field of the structure: every address was allocated as
often as it was freed, plus once if it is live.
-/

inductive HeapFault (Addr : Type) where
  | useAfterFree (p : Addr)
  | doubleFree (p : Addr)
  | nullDereference
  deriving DecidableEq, Repr

structure Heap (Addr Word : Type) where
  live : Addr -> Bool
  word : Addr -> Word
  allocs : Addr -> Nat
  frees : Addr -> Nat
  faults : List (HeapFault Addr)
  balanced : forall p, allocs p = frees p + if live p then 1 else 0

namespace Heap

variable {Addr Word : Type}

/-- Nothing has been allocated; the memory contains whatever it contains. -/
def empty (word : Addr -> Word) : Heap Addr Word where
  live := fun _ => false
  word := word
  allocs := fun _ => 0
  frees := fun _ => 0
  faults := []
  balanced := fun _ => rfl

/-- Record an access through `p`. -/
def touch (heap : Heap Addr Word) (p : Addr) : Heap Addr Word :=
  if heap.live p then heap else { heap with faults := heap.faults ++ [.useAfterFree p] }

variable [DecidableEq Addr]

/-- The allocator may return any address that is not live, a freed one included. -/
def malloc (heap : Heap Addr Word) (p : Addr) (fresh : heap.live p = false) :
    Heap Addr Word where
  live := Function.update heap.live p true
  word := heap.word
  allocs := Function.update heap.allocs p (heap.allocs p + 1)
  frees := heap.frees
  faults := heap.faults
  balanced := by
    intro q
    have before := heap.balanced q
    by_cases same : q = p
    · subst same
      simp only [Function.update_self, if_true]
      simp only [fresh, Bool.false_eq_true, if_false] at before
      omega
    · simpa only [Function.update_of_ne same] using before

def free (heap : Heap Addr Word) (p : Addr) : Heap Addr Word :=
  if live : heap.live p = true then
    { heap with
      live := Function.update heap.live p false
      frees := Function.update heap.frees p (heap.frees p + 1)
      balanced := by
        intro q
        have before := heap.balanced q
        by_cases same : q = p
        · subst same
          simp only [Function.update_self, Bool.false_eq_true, if_false]
          simp only [live, if_true] at before
          omega
        · simpa only [Function.update_of_ne same] using before }
  else { heap with faults := heap.faults ++ [.doubleFree p] }

def store (heap : Heap Addr Word) (p : Addr) (w : Word) : Heap Addr Word :=
  { heap.touch p with word := Function.update heap.word p w }

/-- A store through a pointer that may be NULL. -/
def storeThrough (heap : Heap Addr Word) (pointer : Option Addr) (w : Word) : Heap Addr Word :=
  match pointer with
  | none => { heap with faults := heap.faults ++ [.nullDereference] }
  | some p => heap.store p w

section lemmas

variable {heap : Heap Addr Word} {p q : Addr} {w : Word}

omit [DecidableEq Addr] in
@[simp] theorem touch_of_live (live : heap.live p = true) : heap.touch p = heap := by
  simp [touch, live]

@[simp] theorem malloc_live (fresh : heap.live p = false) :
    (heap.malloc p fresh).live = Function.update heap.live p true := rfl
@[simp] theorem malloc_word (fresh : heap.live p = false) :
    (heap.malloc p fresh).word = heap.word := rfl
@[simp] theorem malloc_faults (fresh : heap.live p = false) :
    (heap.malloc p fresh).faults = heap.faults := rfl

theorem free_live (live : heap.live p = true) :
    (heap.free p).live = Function.update heap.live p false := by
  simp [free, live]
theorem free_faults (live : heap.live p = true) : (heap.free p).faults = heap.faults := by
  simp [free, live]
@[simp] theorem free_word : (heap.free p).word = heap.word := by
  unfold free
  split <;> rfl

@[simp] theorem store_word : (heap.store p w).word = Function.update heap.word p w := rfl
@[simp] theorem store_live : (heap.store p w).live = heap.live := by
  simp only [store, touch]
  split <;> rfl
theorem store_faults (live : heap.live p = true) : (heap.store p w).faults = heap.faults := by
  simp [store, live]

omit [DecidableEq Addr] in
@[simp] theorem touch_live : (heap.touch p).live = heap.live := by
  unfold touch
  split <;> rfl
omit [DecidableEq Addr] in
@[simp] theorem touch_word : (heap.touch p).word = heap.word := by
  unfold touch
  split <;> rfl

omit [DecidableEq Addr] in
/-- An access is not a second free. -/
theorem doubleFree_mem_touch :
    .doubleFree q ∈ (heap.touch p).faults <-> .doubleFree q ∈ heap.faults := by
  unfold touch
  split <;> simp

theorem doubleFree_mem_store :
    .doubleFree q ∈ (heap.store p w).faults <-> .doubleFree q ∈ heap.faults :=
  doubleFree_mem_touch

omit [DecidableEq Addr] in
/-- Nothing leaks where nothing is live: every allocation has been freed. -/
theorem allocs_eq_frees (dead : heap.live p = false) : heap.allocs p = heap.frees p := by
  simpa [dead] using heap.balanced p

end lemmas

/-! ## Between two states of a heap -/

/-- What has been allocated between the two states has been freed, each
allocation once, and no access was wrong. -/
structure Released (before after : Heap Addr Word) : Prop where
  once : forall p, after.allocs p + before.frees p = before.allocs p + after.frees p
  faults : after.faults = before.faults

/-- All is released, and what was live still contains the same. -/
structure Restored (before after : Heap Addr Word) : Prop where
  live : after.live = before.live
  word : forall p, before.live p = true -> after.word p = before.word p
  faults : after.faults = before.faults

/-- One address has been allocated and may have been written. -/
structure Acquired (before after : Heap Addr Word) (p : Addr) : Prop where
  fresh : before.live p = false
  live : after.live = Function.update before.live p true
  word : forall q, q ≠ p -> after.word q = before.word q
  faults : after.faults = before.faults

section between

variable {before after : Heap Addr Word} {p : Addr}

omit [DecidableEq Addr] in
/-- The accounts tell which addresses are live. -/
theorem Released.live (released : Released before after) : after.live = before.live := by
  funext p
  have earlier := before.balanced p
  have later := after.balanced p
  have once := released.once p
  cases wasLive : before.live p <;> cases isLive : after.live p <;>
    simp only [wasLive, isLive, if_true, Bool.false_eq_true, if_false] at earlier later <;>
    first | rfl | omega

omit [DecidableEq Addr] in
theorem Restored.released (restored : Restored before after) : Released before after where
  once := by
    intro p
    have earlier := before.balanced p
    have later := after.balanced p
    rw [restored.live] at later
    omega
  faults := restored.faults

omit [DecidableEq Addr] in
theorem Restored.refl (heap : Heap Addr Word) : Restored heap heap :=
  ⟨rfl, fun _ _ => rfl, rfl⟩

theorem Acquired.malloc (fresh : before.live p = false) :
    Acquired before (before.malloc p fresh) p :=
  ⟨fresh, rfl, fun _ _ => rfl, rfl⟩

theorem Acquired.isLive (acquired : Acquired before after p) : after.live p = true := by
  rw [acquired.live, Function.update_self]

theorem Acquired.store (acquired : Acquired before after p) (w : Word) :
    Acquired before (after.store p w) p where
  fresh := acquired.fresh
  live := store_live.trans acquired.live
  word := by
    intro q different
    rw [store_word, Function.update_of_ne different, acquired.word q different]
  faults := (store_faults acquired.isLive).trans acquired.faults

theorem Acquired.free (acquired : Acquired before after p) : Restored before (after.free p) where
  live := by
    rw [free_live acquired.isLive, acquired.live, Function.update_idem, ← acquired.fresh,
      Function.update_eq_self]
  word := by
    intro q wasLive
    rw [free_word]
    refine acquired.word q ?_
    rintro rfl
    exact absurd (wasLive.symm.trans acquired.fresh) (by decide)
  faults := (free_faults acquired.isLive).trans acquired.faults

/-- What is still held has not been released. -/
theorem Acquired.not_released (acquired : Acquired before after p) :
    ¬Released before after := by
  intro released
  have same := congrFun released.live p
  rw [acquired.isLive, acquired.fresh] at same
  cases same

end between

end Heap

end Concurrency
end Autolock
