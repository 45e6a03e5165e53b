import Autolock.Concurrency.Threads
import Mathlib.Algebra.Group.Nat.Defs

namespace Autolock
namespace Kernel

open Concurrency

/-!
# The cached mapping of the watched page

When a task goes off the processor the kernel pins the page that the task
watches and maps it, so that the scheduler can read the watched word from any
context.  The mapping is kept in the task's context and compared with the
user's pointer at every check.

The user and the kernel are two parties that share the `auto_lock` page.  The
kernel reads `watch_mem` twice in each operation, once to see whether the lock
is armed and once to use it, and the user may write between the two reads.
The kernel's operations on one context follow each other.  `ctx->auto_lock` is
set when the context is created and stays, so that its NULL checks are left out.
-/

/-- `struct auto_lock` -/
structure AutoLock where
  watchMem : BitVec 64
  watchFor : BitVec 32
  watchNeq : BitVec 32
  deriving DecidableEq, Repr

/-- What the context code asks memory management about pages.  `kmap` is the
address of the page in the kernel's linear map, zero if there is none. -/
structure PageWorld (Page : Type) where
  pageCompound : Page -> Bool
  compoundHead : Page -> Page
  pageSize : Page -> Nat
  kmap : Page -> BitVec 64
  head_head : forall p, compoundHead (compoundHead p) = compoundHead p
  head_single : forall p, pageCompound p = false -> compoundHead p = p
  size_single : forall p, pageCompound p = false -> pageSize p = 4096
  kmap_fits : forall p, (kmap p).toNat + pageSize p ≤ 2 ^ 64

/-- `PAGE_MASK` and `HPAGE_MASK` -/
def pageMask : BitVec 64 := ~~~0xfff
def hpageMask : BitVec 64 := ~~~0x1fffff

/-- `struct auto_lock_ctx`; all zero when it is created. -/
structure AutoLockCtx (Page : Type) where
  usrVirtPageStart : BitVec 64
  usrVirtPageMask : BitVec 64
  kernVirtPage : BitVec 64
  page : Option Page

/-- The shared page, the context, and how often each page is pinned and mapped
on behalf of the context. -/
structure KernelState (Page : Type) where
  autoLock : AutoLock
  ctx : AutoLockCtx Page
  pins : Page -> Int
  maps : Page -> Int

/-- Where the kernel is: between operations, behind the `is_armed` of one, or
done with the context for good (released, or stopped by `BUG()`). -/
inductive Phase where
  | idle
  | caching
  | checking
  | gone
  deriving DecidableEq, Repr

inductive Party where
  | user
  | kernel
  deriving DecidableEq, Repr

inductive Op (Page : Type) where
  | write (autoLock : AutoLock)
  | cachePhysAddr
  /-- The rest of `cachePhysAddr`, with what `pin_user_pages_fast` gives. -/
  | pinUserPages (result : Except Int Page)
  | dontSched
  /-- The rest of `dontSched`, with the kernel memory it finds. -/
  | checkMem (mem : BitVec 64 -> BitVec 32)
  | dearm
  | release

inductive Event where
  | wrote
  | armed
  | returned (ret : Int)
  /-- A 32-bit read at a kernel address, and the decision it leads to. -/
  | read (addr : BitVec 64) (dontSched : Bool)
  | dearmed
  | released
  | bug
  deriving DecidableEq, Repr

/-- Count `n` more for a page. -/
def count {Page : Type} [DecidableEq Page] (ledger : Page -> Int) (page : Page) (n : Int) :
    Page -> Int :=
  Function.update ledger page (ledger page + n)

namespace AutoLockCtx

variable {Page : Type}

def zeroed : AutoLockCtx Page := ⟨0, 0, 0, none⟩

/-- `__auto_lock_usr_page_is_mapped` -/
def usrPageIsMapped (ctx : AutoLockCtx Page) (usrVirtAddr : BitVec 64) : Bool :=
  usrVirtAddr &&& ~~~ctx.usrVirtPageMask == ctx.usrVirtPageStart

end AutoLockCtx

namespace KernelState

variable {Page : Type} [DecidableEq Page] (world : PageWorld Page)

/-- `__auto_lock_is_armed` -/
def isArmed (k : KernelState Page) : Bool :=
  k.autoLock.watchMem != 0

/-- `smp_store_release(&(auto_lock->watch_mem), NULL)` -/
def storeNull (k : KernelState Page) : KernelState Page :=
  { k with autoLock := { k.autoLock with watchMem := 0 } }

/-- `__auto_lock_unpin_pages`: the mask and the page stay in the context. -/
def unpinPages (k : KernelState Page) (page : Page) : KernelState Page :=
  { k with
    maps := count k.maps page (-1)
    pins := count k.pins (world.compoundHead page) (-1)
    ctx := { k.ctx with kernVirtPage := 0, usrVirtPageStart := 0 } }

/-- `__auto_lock_check_unpin_pages` -/
def checkUnpinPages (k : KernelState Page) : KernelState Page :=
  match k.ctx.page with
  | none => k
  | some page => k.unpinPages world page

/-- `__auto_lock_cache_phys_addr` from the pin on.  A pin of any page of a
compound page counts for its head. -/
def pinAndMap (k : KernelState Page) (usrVirtAddr : BitVec 64) :
    Except Int Page -> KernelState Page × Int
  | .error ret => (k.storeNull, ret)
  | .ok page =>
      let huge := world.pageCompound page
      let usrVirtPageMask := if huge then ~~~hpageMask else ~~~pageMask
      let usrVirtPageStart := usrVirtAddr &&& if huge then hpageMask else pageMask
      let pins := count k.pins (world.compoundHead page) 1
      let page := if huge then world.compoundHead page else page
      let kernVirtPage := world.kmap page
      if kernVirtPage = 0 then
        -- `done_unpin`: unmaps what was never mapped
        ((unpinPages world { k with pins := pins } page).storeNull, -1)
      else
        ({ k with
            pins := pins
            maps := count k.maps page 1
            ctx := ⟨usrVirtPageStart, usrVirtPageMask, kernVirtPage, some page⟩ }, 1)

/-- `__auto_lock_cache_phys_addr` behind its `is_armed`; `none` is `BUG()`. -/
def cachePhysAddr (k : KernelState Page) (result : Except Int Page) :
    Option (KernelState Page × Int) :=
  let usrVirtAddr := k.autoLock.watchMem
  if k.ctx.usrPageIsMapped usrVirtAddr then some (k, 0)
  else if k.ctx.kernVirtPage = 0 then some (k.pinAndMap world usrVirtAddr result)
  else
    match k.ctx.page with
    | none => none
    | some page => some ((k.unpinPages world page).pinAndMap world usrVirtAddr result)

omit [DecidableEq Page] in
/-- `__auto_lock_check_mem` -/
def checkMem (k : KernelState Page) (mem : BitVec 64 -> BitVec 32) : Event :=
  let usrCurVirtAddr := k.autoLock.watchMem
  if usrCurVirtAddr = 0 then .returned 0
  else if k.ctx.usrPageIsMapped usrCurVirtAddr = false then .returned 0
  else if k.ctx.kernVirtPage = 0 ∨ k.ctx.page.isNone then .bug
  else
    let kernCurMem := k.ctx.kernVirtPage + (usrCurVirtAddr &&& k.ctx.usrVirtPageMask)
    let ret := k.autoLock.watchFor != mem kernCurMem
    .read kernCurMem (if k.autoLock.watchNeq == 0 then ret else !ret)

/-- `__auto_lock_dearm` -/
def dearm (k : KernelState Page) : KernelState Page :=
  (k.checkUnpinPages world).storeNull

/-- One step of a party.  An operation of the kernel on a lock that is armed
takes two, between which the user may write. -/
def step (party : Party) (op : Op Page) (k : KernelState Page) (phase : Phase) :
    Option (KernelState Page × Phase × Event) :=
  match party, op, phase with
  | .user, .write autoLock, phase => some ({ k with autoLock := autoLock }, phase, .wrote)
  | .kernel, .cachePhysAddr, .idle =>
      if k.isArmed then some (k, .caching, .armed) else some (k, .idle, .returned 0)
  | .kernel, .pinUserPages result, .caching =>
      match k.cachePhysAddr world result with
      | none => some (k, .gone, .bug)
      | some (k', ret) => some (k', .idle, .returned ret)
  | .kernel, .dontSched, .idle =>
      if k.isArmed then some (k, .checking, .armed) else some (k, .idle, .returned 0)
  | .kernel, .checkMem mem, .checking =>
      some (k, if k.checkMem mem = .bug then .gone else .idle, k.checkMem mem)
  | .kernel, .dearm, .idle => some (k.dearm world, .idle, .dearmed)
  -- `__auto_lock_release`; the context is freed
  | .kernel, .release, .idle => some (k.checkUnpinPages world, .gone, .released)
  | _, _, _ => none

end KernelState

/-- The user and the kernel on one context. -/
def watchedPage {Page : Type} [DecidableEq Page] (world : PageWorld Page) :
    Program Party (KernelState Page) Phase (Op Page) Event where
  step := KernelState.step world

/-- The context has just been created; the page contains whatever the user wrote. -/
def created {Page : Type} (autoLock : AutoLock) : Machine Party (KernelState Page) Phase where
  shared := ⟨autoLock, .zeroed, fun _ => 0, fun _ => 0⟩
  thread := fun _ => .idle

def watchedPageSystem {Page : Type} [DecidableEq Page] (world : PageWorld Page) :
    TransitionSystem (Machine Party (KernelState Page) Phase) (Party × Event) :=
  (watchedPage world).system fun s => exists autoLock, s = created autoLock

end Kernel
end Autolock
