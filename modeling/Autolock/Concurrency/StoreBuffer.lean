import Mathlib.Data.List.Basic
import Mathlib.Logic.Function.Basic

namespace Autolock
namespace Concurrency

/-!
# Memory behind store buffers

The x86 memory model as an operational one.  A plain store enters a buffer of
its thread; the stores of a buffer reach memory in order, each at any later
time.  A load sees the newest store of its own thread's buffer and otherwise
memory.  A locked read-modify-write is possible only while the buffer of its
thread is empty, which says that it drains the buffer first.
-/

/-- Memory, and for each thread its stores that have not reached memory, oldest first. -/
structure StoreBuffers (Tid Addr Word : Type) where
  memory : Addr -> Word
  buffer : Tid -> List (Addr × Word)

namespace StoreBuffers

variable {Tid Addr Word : Type} [DecidableEq Tid] [DecidableEq Addr]

def store (m : StoreBuffers Tid Addr Word) (t : Tid) (a : Addr) (w : Word) :
    StoreBuffers Tid Addr Word :=
  { m with buffer := Function.update m.buffer t (m.buffer t ++ [(a, w)]) }

/-- The value of the newest of some stores to an address. -/
def newest (a : Addr) (stores : List (Addr × Word)) : Option Word :=
  ((stores.filter fun store => store.1 = a).getLast?).map Prod.snd

omit [DecidableEq Tid] in
def load (m : StoreBuffers Tid Addr Word) (t : Tid) (a : Addr) : Word :=
  (newest a (m.buffer t)).getD (m.memory a)

/-- The oldest store in the buffer of a thread reaches memory. -/
def drain (m : StoreBuffers Tid Addr Word) (t : Tid) : Option (StoreBuffers Tid Addr Word) :=
  match m.buffer t with
  | [] => none
  | (a, w) :: stores =>
      some ⟨Function.update m.memory a w, Function.update m.buffer t stores⟩

omit [DecidableEq Tid] in
/-- A locked read-modify-write, with the value that it has read. -/
def modify (m : StoreBuffers Tid Addr Word) (t : Tid) (a : Addr) (f : Word -> Word) :
    Option (StoreBuffers Tid Addr Word × Word) :=
  match m.buffer t with
  | [] => some ({ m with memory := Function.update m.memory a (f (m.memory a)) }, m.memory a)
  | _ :: _ => none

section lemmas

variable {m m' : StoreBuffers Tid Addr Word} {t : Tid} {a : Addr}

omit [DecidableEq Tid] in
/-- Without a buffered store to an address a load reads memory. -/
theorem load_eq_memory (none : forall store, store ∈ m.buffer t -> store.1 ≠ a) :
    m.load t a = m.memory a := by
  have nothing : (m.buffer t).filter (fun store => store.1 = a) = [] :=
    List.filter_eq_nil_iff.mpr fun store buffered => by simpa using none store buffered
  rw [load, newest, nothing]
  rfl

omit [DecidableEq Tid] in
theorem newest_concat (a b : Addr) (w : Word) (stores : List (Addr × Word)) :
    newest a (stores ++ [(b, w)]) = if b = a then some w else newest a stores := by
  rw [newest, newest, List.filter_append]
  by_cases same : b = a <;> simp [same]

omit [DecidableEq Tid] in
/-- The oldest store counts only without another one to its address. -/
theorem newest_cons_getD (a b : Addr) (w old : Word) (stores : List (Addr × Word)) :
    (newest a ((b, w) :: stores)).getD old = (newest a stores).getD (if b = a then w else old) := by
  rw [newest, newest]
  by_cases same : b = a
  · rw [if_pos same, List.filter_cons, if_pos (by simpa using same), List.getLast?_cons]
    cases (stores.filter fun store => store.1 = a).getLast? <;> rfl
  · rw [if_neg same, List.filter_cons, if_neg (by simpa using same)]

/-- A thread reads what it has just stored. -/
theorem load_store (m : StoreBuffers Tid Addr Word) (t : Tid) (a : Addr) (w : Word) :
    (m.store t a w).load t a = w := by
  simp [load, store, newest, List.filter_append]

theorem drain_eq_some {stored : StoreBuffers Tid Addr Word} (drained : m.drain t = some stored) :
    exists a w stores, m.buffer t = (a, w) :: stores ∧
      stored = ⟨Function.update m.memory a w, Function.update m.buffer t stores⟩ := by
  unfold drain at drained
  split at drained
  · cases drained
  · next a w stores buffered =>
      cases drained
      exact ⟨a, w, stores, buffered, rfl⟩

omit [DecidableEq Tid] in
theorem modify_eq_some {f : Word -> Word} {old : Word} (modified : m.modify t a f = some (m', old)) :
    m.buffer t = [] ∧ old = m.memory a ∧
      m' = { m with memory := Function.update m.memory a (f (m.memory a)) } := by
  unfold modify at modified
  split at modified
  · next empty =>
      cases modified
      exact ⟨empty, rfl, rfl⟩
  · cases modified

end lemmas

end StoreBuffers

end Concurrency
end Autolock
