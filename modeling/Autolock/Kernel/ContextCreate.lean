import Autolock.Kernel.ContextLifetime

namespace Autolock
namespace Kernel

open Concurrency

/-!
# The unwinding of `__auto_lock_create`

The call acquires a context, a page, a socket, a file and a descriptor, and
attaches the context to the task last.  Each of these steps can fail, and the
resources refer to each other: the context to its page and its socket, the
socket to the file, the file to the context.

Here all of them are there, with the account of a heap for each kind, so that
"released exactly once" and "freed but still reachable" can be stated.  The
model of a context's lifetime has the same function without the socket.
-/

abbrev SockAddr := Nat

/-- The error of a kernel function that returns 0 or a negative number. -/
structure Errno where
  number : Nat
  positive : 0 < number

/-- The error as it is returned. -/
def Errno.ret (err : Errno) : Int := -(err.number : Int)

theorem Errno.ret_neg (err : Errno) : err.ret < 0 :=
  Int.neg_neg_of_pos (Int.natCast_pos.mpr err.positive)

/-- `struct auto_lock_ctx`, as far as it is used here. -/
structure CtxResources where
  autoLock : Option PageAddr
  autoLockSock : Option SockAddr

/-- What the call reads and writes.  The word of a socket is its `file`, that of
a file its `private_data`.  A descriptor is live from its reservation on, and
its word is the file that has been installed. -/
structure KernelObjects where
  ctxs : Heap CtxAddr CtxResources
  pages : Heap PageAddr Unit
  socks : Heap SockAddr (Option FileAddr)
  files : Heap FileAddr CtxAddr
  fds : Heap Nat (Option FileAddr)
  /-- `current->auto_lock` -/
  current : Option CtxAddr

/-- What the functions that `__auto_lock_create` calls return. -/
structure CreateOutcomes where
  ctx : Option CtxAddr
  page : Option PageAddr
  sock : Except Errno SockAddr
  file : Except Errno FileAddr
  fd : Except Errno Nat

/-- The steps of the creation that can fail.  The task is looked at twice:
before anything is acquired and again when the context is attached. -/
inductive CreateStep where
  | context
  | page
  | socket
  | file
  | descriptor
  | attach
  deriving DecidableEq, Repr

namespace KernelObjects

/-- `ctx->auto_lock = page` -/
def setPage (s : KernelObjects) (ctx : CtxAddr) (page : Option PageAddr) : KernelObjects :=
  { s with ctxs := s.ctxs.store ctx { s.ctxs.word ctx with autoLock := page } }

/-- `ctx->auto_lock_sock = sock` -/
def setSock (s : KernelObjects) (ctx : CtxAddr) (sock : Option SockAddr) : KernelObjects :=
  { s with ctxs := s.ctxs.store ctx { s.ctxs.word ctx with autoLockSock := sock } }

/-- `kzalloc(sizeof(*ctx))` -/
def zallocCtx (s : KernelObjects) (ctx : CtxAddr) : Option KernelObjects :=
  if fresh : s.ctxs.live ctx = false then
    some { s with ctxs := (s.ctxs.malloc ctx fresh).store ctx ⟨none, none⟩ }
  else none

/-- `auto_lock_alloc_mem` -/
def allocPage (s : KernelObjects) (page : PageAddr) : Option KernelObjects :=
  if fresh : s.pages.live page = false then some { s with pages := s.pages.malloc page fresh }
  else none

/-- `sock_create_kern(.., &ctx->auto_lock_sock)` -/
def sockCreate (s : KernelObjects) (ctx : CtxAddr) (sock : SockAddr) : Option KernelObjects :=
  if fresh : s.socks.live sock = false then
    some ({ s with socks := (s.socks.malloc sock fresh).store sock none }.setSock ctx (some sock))
  else none

/-- `anon_inode_getfile_secure(.., ctx, ..)` -/
def getFile (s : KernelObjects) (ctx : CtxAddr) (file : FileAddr) : Option KernelObjects :=
  if fresh : s.files.live file = false then
    some { s with files := (s.files.malloc file fresh).store file ctx }
  else none

/-- `get_unused_fd_flags` -/
def getUnusedFd (s : KernelObjects) (fd : Nat) : Option KernelObjects :=
  if fresh : s.fds.live fd = false then
    some { s with fds := (s.fds.malloc fd fresh).store fd none }
  else none

def fdInstall (s : KernelObjects) (fd : Nat) (file : FileAddr) : KernelObjects :=
  { s with fds := s.fds.store fd (some file) }

/-- `sock_release(ctx->auto_lock_sock)` and `ctx->auto_lock_sock = NULL` -/
def releaseSock (s : KernelObjects) (ctx : CtxAddr) : KernelObjects :=
  match (s.ctxs.word ctx).autoLockSock with
  | none => s.setSock ctx none
  | some sock => { s with socks := s.socks.free sock }.setSock ctx none

/-- `ctx->auto_lock_sock->file = file` -/
def setSockFile (s : KernelObjects) (ctx : CtxAddr) (file : FileAddr) : KernelObjects :=
  { s with socks := s.socks.storeThrough (s.ctxs.word ctx).autoLockSock (some file) }

/-- `auto_lock_free_mem(ctx->auto_lock)` -/
def freeMem (s : KernelObjects) (ctx : CtxAddr) : KernelObjects :=
  match (s.ctxs.word ctx).autoLock with
  | none => s
  | some page => { s with pages := s.pages.free page }

def freeCtx (s : KernelObjects) (ctx : CtxAddr) : KernelObjects :=
  { s with ctxs := s.ctxs.free ctx }

/-- `auto_lock_get_file`; without `CONFIG_UNIX` there is no socket. -/
def autoLockGetFile (configUnix : Bool) (s : KernelObjects) (ctx : CtxAddr)
    (sock : Except Errno SockAddr) (file : Except Errno FileAddr) :
    Option (KernelObjects × Except Errno FileAddr) :=
  if configUnix then
    match sock with
    | .error err => some (s, .error err)
    | .ok sock => do
        let s <- s.sockCreate ctx sock
        match file with
        | .error err => some (s.releaseSock ctx, .error err)
        | .ok file => do
            let s <- s.getFile ctx file
            some (s.setSockFile ctx file, .ok file)
  else
    match file with
    | .error err => some (s, .error err)
    | .ok file => do
        let s <- s.getFile ctx file
        some (s, .ok file)

/-- `auto_ctx_add_ctx` -/
def autoCtxAddCtx (s : KernelObjects) (ctx : CtxAddr) : KernelObjects × Int :=
  if s.current.isSome then (s, -eexist) else ({ s with current := some ctx }, 0)

/-- `auto_lock_install_fd` -/
def autoLockInstallFd (s : KernelObjects) (ctx : CtxAddr) (file : FileAddr)
    (fd : Except Errno Nat) : Option (KernelObjects × Int) :=
  match fd with
  | .error err => some (s, err.ret)
  | .ok fd => do
      let s <- s.getUnusedFd fd
      let (s, ret) := s.autoCtxAddCtx ctx
      if ret ≠ 0 then some (s, ret) else some (s.fdInstall fd file, fd)

/-- `__auto_lock_create` -/
def autoLockCreate (configUnix : Bool) (out : CreateOutcomes) (s : KernelObjects) :
    Option (KernelObjects × Int) :=
  if s.current.isSome then some (s, -eexist)
  else
    match out.ctx with
    | none => some (s, -enomem)
    | some ctx => do
        let s <- s.zallocCtx ctx
        match out.page with
        -- `done1`
        | none => some ((s.setPage ctx none).freeCtx ctx, -enomem)
        | some page => do
            let s <- s.allocPage page
            let (s, file) <- (s.setPage ctx (some page)).autoLockGetFile configUnix ctx
              out.sock out.file
            match file with
            -- `done2`
            | .error err => some ((s.freeMem ctx).freeCtx ctx, err.ret)
            | .ok file => do
                let (s, ret) <- s.autoLockInstallFd ctx file out.fd
                if ret < 0 then some ((s.freeMem ctx).freeCtx ctx, ret) else some (s, ret)

/-- The step of `auto_lock_get_file` that fails, if one does. -/
def getFileFailure (configUnix : Bool) (sock : Except Errno SockAddr)
    (file : Except Errno FileAddr) : Option CreateStep :=
  match configUnix, sock, file with
  | true, .error _, _ => some .socket
  | _, _, .error _ => some .file
  | _, _, .ok _ => none

/-- The first step that fails, if one does. -/
def failure (configUnix : Bool) (out : CreateOutcomes) (s : KernelObjects) : Option CreateStep :=
  if s.current.isSome then some .attach
  else
    match out.ctx, out.page with
    | none, _ => some .context
    | some _, none => some .page
    | some _, some _ =>
        match getFileFailure configUnix out.sock out.file, out.fd with
        | some step, _ => some step
        | none, .error _ => some .descriptor
        | none, .ok _ => none

end KernelObjects

end Kernel
end Autolock
