import Autolock.Concurrency.Heap
import Autolock.Concurrency.Threads

namespace Autolock
namespace Kernel

open Concurrency

/-!
# The lifetime of contexts and shared pages

The threads of one process share their descriptors and their address space.
Each task has its own `auto_lock` field.  A context is reached from the field of
the task that created it and from the file that `create` returned; a file stays
open as long as a descriptor or a mapping refers to it.  Only the field decides
when the context and its page are freed: the release of the file does nothing,
and a mapping of the page takes no reference to it.

The socket of a context is left out, since nobody reaches it but through the
context, and so are the pins, which have modules of their own.
-/

abbrev CtxAddr := Nat
abbrev PageAddr := Nat
abbrev FileAddr := Nat

def eexist : Int := 17
def enomem : Int := 12
def einval : Int := 22
def epollin : Int := 1
def pageSize : Nat := 4096

/-- What the threads share.  The word of a context is `ctx->auto_lock`. -/
structure Process where
  /-- How many threads are alive. -/
  users : Nat
  ctxs : Heap CtxAddr (Option PageAddr)
  pages : Heap PageAddr Unit
  /-- `file->private_data` -/
  privateData : FileAddr -> CtxAddr
  /-- Files whose first reference no descriptor has taken over. -/
  uninstalled : List FileAddr
  fds : List (Nat × FileAddr)
  /-- Mappings with the page they show and the file they hold open. -/
  vmas : List (Nat × Option PageAddr × FileAddr)

inductive TaskState where
  | unborn
  | alive
  | dead
  | put
  deriving DecidableEq, Repr

structure Task where
  state : TaskState
  autoLock : Option CtxAddr
  deriving DecidableEq, Repr

/-- Where `__auto_lock_create` fails, with the error of the function that fails. -/
inductive CreateFailure where
  | noCtx
  | noPage
  | noFile (err : Int)
  | noFd (err : Int)
  deriving DecidableEq, Repr

/-- What a thread does.  `create` is told what the allocators return, `mmap` what
a freed context would contain and what `remap_pfn_range` returns. -/
inductive LifetimeOp where
  | clone
  | create (failure : Option CreateFailure) (ctx : CtxAddr) (page : PageAddr) (file : FileAddr)
      (fd : Nat)
  | destroy
  | mmap (fd vma sz : Nat) (stale : Option PageAddr) (ret : Int)
  | munmap (vma : Nat)
  | poll (fd : Nat)
  | dup (fd fd' : Nat)
  | close (fd : Nat)
  | exit
  /-- `__put_task_struct`, after the last reference to the task is gone -/
  | putTaskStruct
  deriving DecidableEq, Repr

namespace Process

/-- Somebody holds a reference to the file. -/
def IsOpen (p : Process) (file : FileAddr) : Prop :=
  file ∈ p.uninstalled ∨ (exists fd, (fd, file) ∈ p.fds) ∨
    exists vma ptr, (vma, ptr, file) ∈ p.vmas

/-- The files that are open, as a list. -/
def openFiles (p : Process) : List FileAddr :=
  p.uninstalled ++ p.fds.map (fun entry => entry.2) ++ p.vmas.map (fun entry => entry.2.2)

theorem mem_openFiles {p : Process} {file : FileAddr} : file ∈ p.openFiles <-> p.IsOpen file := by
  simp [openFiles, IsOpen]

instance (p : Process) (file : FileAddr) : Decidable (p.IsOpen file) :=
  decidable_of_iff _ mem_openFiles

/-- `kzalloc(sizeof(*ctx))` -/
def kzalloc (p : Process) (ctx : CtxAddr) : Option Process :=
  if fresh : p.ctxs.live ctx = false then
    some { p with ctxs := (p.ctxs.malloc ctx fresh).store ctx none }
  else none

/-- `ctx->auto_lock = auto_lock_alloc_mem()` -/
def allocMem (p : Process) (ctx : CtxAddr) (page : PageAddr) : Option Process :=
  if fresh : p.pages.live page = false then
    some { p with
      pages := p.pages.malloc page fresh
      ctxs := p.ctxs.store ctx (some page) }
  else none

/-- `auto_lock_get_file`; the first reference to the file is with the caller. -/
def getFile (p : Process) (ctx : CtxAddr) (file : FileAddr) : Option Process :=
  if p.IsOpen file then none
  else
    some { p with
      privateData := Function.update p.privateData file ctx
      uninstalled := file :: p.uninstalled }

/-- `fd_install`: the descriptor takes over the reference. -/
def fdInstall (p : Process) (file : FileAddr) (fd : Nat) : Option Process :=
  if (p.fds.lookup fd).isSome then none
  else some { p with
    uninstalled := p.uninstalled.erase file
    fds := (fd, file) :: p.fds }

def kfree (p : Process) (ctx : CtxAddr) : Process :=
  { p with ctxs := p.ctxs.free ctx }

/-- `auto_lock_free_mem(ctx->auto_lock)` and `kfree(ctx)` -/
def freeCtx (p : Process) (ctx : CtxAddr) : Process :=
  { p with
    pages := match p.ctxs.word ctx with
      | none => p.pages
      | some page => p.pages.free page
    ctxs := (p.ctxs.touch ctx).free ctx }

/-- `__auto_lock_release` -/
def release (p : Process) : Option CtxAddr -> Process
  | none => p
  | some ctx => p.freeCtx ctx

/-- `__auto_lock_create`, path by path.  The second test of `current->auto_lock`,
in `auto_ctx_add_ctx`, cannot fail: nobody else writes the field. -/
def create (p : Process) (task : Task) (failure : Option CreateFailure) (ctx : CtxAddr)
    (page : PageAddr) (file : FileAddr) (fd : Nat) : Option (Process × Task × Int) :=
  if task.autoLock.isSome then some (p, task, -eexist)
  else
    match failure with
    | some .noCtx => some (p, task, -enomem)
    | some .noPage => do
        let p <- p.kzalloc ctx
        some (p.kfree ctx, task, -enomem)
    | some (.noFile err) => do
        let p <- p.kzalloc ctx
        let p <- p.allocMem ctx page
        some (p.freeCtx ctx, task, err)
    | some (.noFd err) => do
        let p <- p.kzalloc ctx
        let p <- p.allocMem ctx page
        let p <- p.getFile ctx file
        -- the file is neither installed nor put
        some (p.freeCtx ctx, task, err)
    | none => do
        let p <- p.kzalloc ctx
        let p <- p.allocMem ctx page
        let p <- p.getFile ctx file
        let p <- p.fdInstall file fd
        some (p, { task with autoLock := some ctx }, fd)

/-- `auto_lock_mmap` on a file -/
def mmap (p : Process) (file : FileAddr) (vma sz : Nat) (stale : Option PageAddr) (ret : Int) :
    Option (Process × Int) :=
  let ctx := p.privateData file
  let ptr := if p.ctxs.live ctx then p.ctxs.word ctx else stale
  let p := { p with ctxs := p.ctxs.touch ctx }
  if pageSize < sz then some (p, -einval)
  else if ret ≠ 0 then some (p, ret)
  else if (p.vmas.lookup vma).isSome then none
  else some ({ p with vmas := (vma, ptr, file) :: p.vmas }, 0)

/-- `auto_lock_poll` on a file -/
def poll (p : Process) (file : FileAddr) : Process × Int :=
  ({ p with ctxs := p.ctxs.touch (p.privateData file) }, epollin)

/-- `do_exit`: the last thread takes the address space and the descriptors with it. -/
def doExit (p : Process) : Process :=
  if p.users ≤ 1 then { p with users := 0, fds := [], vmas := [] }
  else { p with users := p.users - 1 }

/-- One step of one thread, with what it returns. -/
def step (op : LifetimeOp) (p : Process) (task : Task) : Option (Process × Task × Int) :=
  match task.state, op with
  -- `copy_process` resets the field
  | .unborn, .clone =>
      if p.users = 0 then none else some ({ p with users := p.users + 1 }, ⟨.alive, none⟩, 0)
  | .alive, .create failure ctx page file fd => p.create task failure ctx page file fd
  | .alive, .destroy => some (p.release task.autoLock, { task with autoLock := none }, 0)
  | .alive, .mmap fd vma sz stale ret => do
      let file <- p.fds.lookup fd
      let (p, ret) <- p.mmap file vma sz stale ret
      some (p, task, ret)
  | .alive, .munmap vma =>
      some ({ p with vmas := p.vmas.filter fun entry => entry.1 ≠ vma }, task, 0)
  | .alive, .poll fd => do
      let file <- p.fds.lookup fd
      some ((p.poll file).1, task, (p.poll file).2)
  | .alive, .dup fd fd' => do
      let file <- p.fds.lookup fd
      if (p.fds.lookup fd').isSome then none
      else some ({ p with fds := (fd', file) :: p.fds }, task, fd')
  -- `auto_lock_fd_release` does nothing
  | .alive, .close fd =>
      some ({ p with fds := p.fds.filter fun entry => entry.1 ≠ fd }, task, 0)
  | .alive, .exit => some (p.doExit, { task with state := .dead }, 0)
  -- `auto_lock_free`
  | .dead, .putTaskStruct => some (p.release task.autoLock, ⟨.put, none⟩, 0)
  | _, _ => none

end Process

/-- The threads of one process. -/
def contextLifetime (Tid : Type) : Program Tid Process Task LifetimeOp Int where
  step := fun _ => Process.step

abbrev LifetimeLabel (Tid : Type) := Tid × StepRecord Task LifetimeOp Int

/-- A process with one thread that has used nothing yet; memory contains whatever
it contains. -/
def startsWith {Tid : Type} (s : Machine Tid Process Task) : Prop :=
  exists first words contents privateData,
    s.shared = ⟨1, .empty words, .empty contents, privateData, [], [], []⟩ ∧
      s.thread first = ⟨.alive, none⟩ ∧ forall t, t ≠ first -> s.thread t = ⟨.unborn, none⟩

abbrev lifetimeSystem (Tid : Type) [DecidableEq Tid] :
    TransitionSystem (Machine Tid Process Task) (LifetimeLabel Tid) :=
  (contextLifetime Tid).recorded.system startsWith

end Kernel
end Autolock
