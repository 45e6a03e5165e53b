import Autolock.Kernel.WatchedPageSafety

namespace Autolock
namespace Kernel

open Concurrency

/-!
# The cached mapping and the address space of the task

The kernel translates the watched address when it pins the page, and from then
on reads through its own mapping.  The user may map something else at the
watched address in the meantime.  Whether the kernel then reads the word that
the user means is a matter of physical addresses: the page table says where the
user's bytes are, the linear map says where the kernel's are.
-/

/-- Page frames by number, at a fixed distance from their physical addresses in
the kernel's half of the addresses. -/
structure LinearMap (Page : Type) extends PageWorld Page where
  pfn : Page -> Nat
  pageOffset : Nat
  high : 2 ^ 63 ≤ pageOffset
  linear : forall p, (kmap p).toNat = pageOffset + 4096 * pfn p
  fits : forall p, pageOffset + 4096 * (pfn p + 1) ≤ 2 ^ 64

/-- The user's page table, by virtual page number. -/
abbrev PageTable (Page : Type) := Nat -> Option Page

/-- The number of the virtual page of an address. -/
def vpn (addr : BitVec 64) : Nat :=
  addr.toNat / 4096

namespace LinearMap

variable {Page : Type} (world : LinearMap Page)

/-- The physical address of a user's byte. -/
def userByte (pageTable : PageTable Page) (addr : BitVec 64) : Option Nat :=
  (pageTable (vpn addr)).map fun frame => 4096 * world.pfn frame + addr.toNat % 4096

/-- The physical address of a byte in the linear map. -/
def kernelByte (addr : BitVec 64) : Option Nat :=
  if world.pageOffset ≤ addr.toNat then some (addr.toNat - world.pageOffset) else none

end LinearMap

/-- The context and the shared page, with the page table of the task. -/
structure MappedState (Page : Type) where
  kernel : KernelState Page
  pageTable : PageTable Page

/-- What happens to the context, and the user's `mmap` and `munmap`, page by page. -/
inductive SpaceOp (Page : Type) where
  | context (op : Op Page)
  | remap (page : Nat) (entry : Option Page)

inductive SpaceEvent where
  | context (event : Event)
  | remapped
  deriving DecidableEq, Repr

namespace MappedState

variable {Page : Type} [DecidableEq Page] (world : LinearMap Page)

omit [DecidableEq Page] in
/-- A pin gives the page that is mapped at the watched address. -/
def PinGives (m : MappedState Page) : Op Page -> Prop
  | .pinUserPages (.ok page) => m.pageTable (vpn m.kernel.autoLock.watchMem) = some page
  | _ => True

instance (m : MappedState Page) (op : Op Page) : Decidable (m.PinGives op) := by
  unfold PinGives
  split <;> infer_instance

def step (party : Party) (op : SpaceOp Page) (m : MappedState Page) (phase : Phase) :
    Option (MappedState Page × Phase × SpaceEvent) :=
  match op with
  | .remap page entry =>
      if party = .user then
        some ({ m with pageTable := Function.update m.pageTable page entry }, phase, .remapped)
      else none
  | .context op =>
      if m.PinGives op then
        (KernelState.step world.toPageWorld party op m.kernel phase).map fun result =>
          ({ m with kernel := result.1 }, result.2.1, .context result.2.2)
      else none

omit [DecidableEq Page] in
/-- The four bytes at a kernel address are the four bytes at the watched address. -/
def ReadsWatched (m : MappedState Page) (addr : BitVec 64) : Prop :=
  forall i : Nat, i < 4 -> exists byte,
    world.userByte m.pageTable (m.kernel.autoLock.watchMem + BitVec.ofNat 64 i) = some byte ∧
      world.kernelByte (addr + BitVec.ofNat 64 i) = some byte

omit [DecidableEq Page] in
/-- Where the watched address is, in frames from the cached page: zero for an
ordinary page, the frame within two megabytes for a compound one. -/
def cachedFrame (m : MappedState Page) : Nat :=
  (m.kernel.autoLock.watchMem &&& m.kernel.ctx.usrVirtPageMask).toNat / 4096

omit [DecidableEq Page] in
/-- The page of the user is mapped to the frame with a number. -/
def MapsTo (m : MappedState Page) (page number : Nat) : Prop :=
  exists frame, m.pageTable page = some frame ∧ world.pfn frame = number

omit [DecidableEq Page] in
/-- The watched page is still mapped to its frame of the cached page, and so is
the next one if the word reaches into it. -/
def StillMapped (m : MappedState Page) (page : Page) : Prop :=
  let addr := m.kernel.autoLock.watchMem
  m.MapsTo world (vpn addr) (world.pfn page + m.cachedFrame) ∧
    (4096 < addr.toNat % 4096 + 4 ->
      m.MapsTo world (vpn (addr + 3)) (world.pfn page + m.cachedFrame + 1))

omit [DecidableEq Page] in
/-- The condition on a check: if it gets to read, the page is still mapped. -/
def CheckCurrent (m : MappedState Page) : Prop :=
  m.kernel.autoLock.watchMem ≠ 0 ->
    m.kernel.ctx.usrPageIsMapped m.kernel.autoLock.watchMem = true ->
    m.kernel.ctx.kernVirtPage ≠ 0 ->
    forall page, m.kernel.ctx.page = some page -> m.StillMapped world page

end MappedState

/-- The user and the kernel on one context and one address space. -/
def mappedPage {Page : Type} [DecidableEq Page] (world : LinearMap Page) :
    Program Party (MappedState Page) Phase (SpaceOp Page) SpaceEvent where
  step := MappedState.step world

/-- The context has just been created. -/
def createdIn {Page : Type} (autoLock : AutoLock) (pageTable : PageTable Page) :
    Machine Party (MappedState Page) Phase where
  shared := ⟨⟨autoLock, .zeroed, fun _ => 0, fun _ => 0⟩, pageTable⟩
  thread := fun _ => .idle

def mappedPageSystem {Page : Type} [DecidableEq Page] (world : LinearMap Page) :
    TransitionSystem (Machine Party (MappedState Page) Phase) (Party × SpaceEvent) :=
  (mappedPage world).system fun s => exists autoLock pageTable, s = createdIn autoLock pageTable

/-! ## Physical addresses -/

section physical

variable {Page : Type} {world : LinearMap Page}

/-- A byte at a small distance from a frame, in the linear map. -/
theorem kernelByte_eq_some {page : Page} {distance byte : Nat} {addr : BitVec 64}
    (near : distance < 2 ^ 62) (address : addr = world.kmap page + BitVec.ofNat 64 distance) :
    world.kernelByte addr = some byte <->
      byte = 4096 * world.pfn page + distance ∧ world.pageOffset + byte < 2 ^ 64 := by
  have high := world.high
  have linear := world.linear page
  have fits := world.fits page
  have value : addr.toNat = (world.pageOffset + 4096 * world.pfn page + distance) % 2 ^ 64 := by
    rw [address, BitVec.toNat_add, BitVec.toNat_ofNat, linear]
    omega
  unfold LinearMap.kernelByte
  split
  · simp only [Option.some.injEq]
    omega
  · simp only [reduceCtorEq, false_iff, not_and]
    omega

theorem userByte_eq_some {pageTable : PageTable Page} {addr : BitVec 64} {byte : Nat} :
    world.userByte pageTable addr = some byte <->
      exists frame, pageTable (vpn addr) = some frame ∧
        4096 * world.pfn frame + addr.toNat % 4096 = byte := by
  unfold LinearMap.userByte
  rw [Option.map_eq_some_iff]

/-- One byte of the word is right if its page is mapped to its frame. -/
theorem byte_iff {m : MappedState Page} {page : Page} {distance i : Nat} {addr watched : BitVec 64}
    (near : distance < 2 ^ 32) (small : i < 4)
    (address : addr = world.kmap page + BitVec.ofNat 64 distance)
    (same : distance % 4096 = watched.toNat % 4096) :
    (exists byte, world.userByte m.pageTable (watched + BitVec.ofNat 64 i) = some byte ∧
        world.kernelByte (addr + BitVec.ofNat 64 i) = some byte) <->
      m.MapsTo world (vpn (watched + BitVec.ofNat 64 i))
        (world.pfn page + (distance + i) / 4096) := by
  have further : addr + BitVec.ofNat 64 i = world.kmap page + BitVec.ofNat 64 (distance + i) := by
    rw [address, BitVec.add_assoc, BitVec.ofNat_add]
  have offset : (watched + BitVec.ofNat 64 i).toNat % 4096 = (distance + i) % 4096 := by
    rw [BitVec.toNat_add, BitVec.toNat_ofNat]
    omega
  simp only [userByte_eq_some, kernelByte_eq_some (show distance + i < 2 ^ 62 by omega) further,
    offset]
  constructor
  · rintro ⟨byte, ⟨frame, mapped, there⟩, here, _⟩
    exact ⟨frame, mapped, by omega⟩
  · rintro ⟨frame, mapped, number⟩
    have fits := world.fits frame
    exact ⟨_, ⟨frame, mapped, rfl⟩, by omega, by omega⟩

end physical

end Kernel
end Autolock
