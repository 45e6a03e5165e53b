import Autolock.Kernel.ContextCreate

namespace Autolock
namespace Kernel

open Concurrency

/-!
# What a failed creation leaves behind

Whatever fails before the descriptor, everything that has been acquired is given
back and no pointer is left to it.  When no descriptor can be reserved the same
labels are taken, but there is a file by then, and its socket: nobody puts the
file, nobody releases the socket, and `private_data` points to the freed context.
-/

/-- A pointer that is stored somewhere. -/
inductive KernelPointer where
  | task (ctx : CtxAddr)
  | privateData (file : FileAddr) (ctx : CtxAddr)
  | descriptor (fd : Nat) (file : FileAddr)
  | page (ctx : CtxAddr) (page : PageAddr)
  | sock (ctx : CtxAddr) (sock : SockAddr)
  | sockFile (sock : SockAddr) (file : FileAddr)

namespace KernelObjects

/-- What stores the pointer has not been freed, what it points to has. -/
def Dangles (s : KernelObjects) : KernelPointer -> Prop
  | .task ctx => s.current = some ctx ∧ s.ctxs.live ctx = false
  | .privateData file ctx =>
      s.files.live file = true ∧ s.files.word file = ctx ∧ s.ctxs.live ctx = false
  | .descriptor fd file =>
      s.fds.live fd = true ∧ s.fds.word fd = some file ∧ s.files.live file = false
  | .page ctx page =>
      s.ctxs.live ctx = true ∧ (s.ctxs.word ctx).autoLock = some page ∧ s.pages.live page = false
  | .sock ctx sock =>
      s.ctxs.live ctx = true ∧ (s.ctxs.word ctx).autoLockSock = some sock ∧
        s.socks.live sock = false
  | .sockFile sock file =>
      s.socks.live sock = true ∧ s.socks.word sock = some file ∧ s.files.live file = false

/-- Everything acquired between the two states has been released exactly once,
the task is as it was, and no pointer has been left dangling. -/
structure Undone (s s' : KernelObjects) : Prop where
  ctxs : Heap.Released s.ctxs s'.ctxs
  pages : Heap.Released s.pages s'.pages
  socks : Heap.Released s.socks s'.socks
  files : Heap.Released s.files s'.files
  fds : Heap.Released s.fds s'.fds
  current : s'.current = s.current
  dangling : forall pointer, s'.Dangles pointer -> s.Dangles pointer

/-- What is live is as it was. -/
structure Restored (s s' : KernelObjects) : Prop where
  ctxs : Heap.Restored s.ctxs s'.ctxs
  pages : Heap.Restored s.pages s'.pages
  socks : Heap.Restored s.socks s'.socks
  files : Heap.Restored s.files s'.files
  fds : Heap.Restored s.fds s'.fds
  current : s'.current = s.current

variable {s s' s₁ s₂ : KernelObjects} {ctx : CtxAddr} {page : PageAddr} {configUnix : Bool}
  {out : CreateOutcomes}

theorem Restored.refl (s : KernelObjects) : s.Restored s where
  ctxs := .refl _
  pages := .refl _
  socks := .refl _
  files := .refl _
  fds := .refl _
  current := rfl

theorem Restored.undone (restored : s.Restored s') : s.Undone s' where
  ctxs := restored.ctxs.released
  pages := restored.pages.released
  socks := restored.socks.released
  files := restored.files.released
  fds := restored.fds.released
  current := restored.current
  dangling := by
    intro pointer dangles
    cases pointer with
    | task ctx =>
        rcases dangles with ⟨stored, dead⟩
        exact ⟨restored.current ▸ stored, restored.ctxs.live ▸ dead⟩
    | privateData file ctx =>
        rcases dangles with ⟨live, stored, dead⟩
        rw [restored.files.live] at live
        exact ⟨live, restored.files.word file live ▸ stored, restored.ctxs.live ▸ dead⟩
    | descriptor fd file =>
        rcases dangles with ⟨live, stored, dead⟩
        rw [restored.fds.live] at live
        exact ⟨live, restored.fds.word fd live ▸ stored, restored.files.live ▸ dead⟩
    | page ctx page =>
        rcases dangles with ⟨live, stored, dead⟩
        rw [restored.ctxs.live] at live
        exact ⟨live, restored.ctxs.word ctx live ▸ stored, restored.pages.live ▸ dead⟩
    | sock ctx sock =>
        rcases dangles with ⟨live, stored, dead⟩
        rw [restored.ctxs.live] at live
        exact ⟨live, restored.ctxs.word ctx live ▸ stored, restored.socks.live ▸ dead⟩
    | sockFile sock file =>
        rcases dangles with ⟨live, stored, dead⟩
        rw [restored.socks.live] at live
        exact ⟨live, restored.socks.word sock live ▸ stored, restored.files.live ▸ dead⟩

/-! ## The creation under way -/

/-- There is a context, and it has its page. -/
structure Building (s s' : KernelObjects) (ctx : CtxAddr) (page : PageAddr) : Prop where
  ctxs : Heap.Acquired s.ctxs s'.ctxs ctx
  pages : Heap.Acquired s.pages s'.pages page
  holds : (s'.ctxs.word ctx).autoLock = some page
  fds : s'.fds = s.fds
  current : s'.current = s.current

theorem zallocCtx_eq_some (allocated : s.zallocCtx ctx = some s') :
    exists fresh, s' = { s with ctxs := (s.ctxs.malloc ctx fresh).store ctx ⟨none, none⟩ } := by
  unfold zallocCtx at allocated
  split at allocated <;> cases allocated
  next fresh => exact ⟨fresh, rfl⟩

theorem allocPage_eq_some (allocated : s.allocPage page = some s') :
    exists fresh, s' = { s with pages := s.pages.malloc page fresh } := by
  unfold allocPage at allocated
  split at allocated <;> cases allocated
  next fresh => exact ⟨fresh, rfl⟩

theorem sockCreate_eq_some {sock : SockAddr} (created : s.sockCreate ctx sock = some s') :
    exists fresh, s' =
      { s with socks := (s.socks.malloc sock fresh).store sock none }.setSock ctx (some sock) := by
  unfold sockCreate at created
  split at created <;> cases created
  next fresh => exact ⟨fresh, rfl⟩

theorem getFile_eq_some {file : FileAddr} (opened : s.getFile ctx file = some s') :
    exists fresh, s' = { s with files := (s.files.malloc file fresh).store file ctx } := by
  unfold getFile at opened
  split at opened <;> cases opened
  next fresh => exact ⟨fresh, rfl⟩

theorem getUnusedFd_eq_some {fd : Nat} (reserved : s.getUnusedFd fd = some s') :
    exists fresh, s' = { s with fds := (s.fds.malloc fd fresh).store fd none } := by
  unfold getUnusedFd at reserved
  split at reserved <;> cases reserved
  next fresh => exact ⟨fresh, rfl⟩

theorem Building.start (first : s.zallocCtx ctx = some s₁) (second : s₁.allocPage page = some s₂) :
    s.Building (s₂.setPage ctx (some page)) ctx page := by
  rcases zallocCtx_eq_some first with ⟨fresh, rfl⟩
  rcases allocPage_eq_some second with ⟨fresh', rfl⟩
  exact
    { ctxs := ((Heap.Acquired.malloc fresh).store _).store _
      pages := .malloc fresh'
      holds := by simp [setPage]
      fds := rfl
      current := rfl }

theorem Building.setSock (building : s.Building s' ctx page) (sock : Option SockAddr) :
    s.Building (s'.setSock ctx sock) ctx page where
  ctxs := building.ctxs.store _
  pages := building.pages
  holds := by simpa [KernelObjects.setSock] using building.holds
  fds := building.fds
  current := building.current

theorem Building.withSocks (building : s.Building s' ctx page)
    (socks : Heap SockAddr (Option FileAddr)) : s.Building { s' with socks := socks } ctx page :=
  ⟨building.ctxs, building.pages, building.holds, building.fds, building.current⟩

theorem Building.withFiles (building : s.Building s' ctx page) (files : Heap FileAddr CtxAddr) :
    s.Building { s' with files := files } ctx page :=
  ⟨building.ctxs, building.pages, building.holds, building.fds, building.current⟩

/-- `done2` gives back the page and the context. -/
theorem Building.done2 (building : s.Building s' ctx page)
    (socks : Heap.Restored s.socks s'.socks) (files : Heap.Restored s.files s'.files) :
    s.Restored ((s'.freeMem ctx).freeCtx ctx) := by
  simp only [freeMem, building.holds, freeCtx]
  exact
    { ctxs := building.ctxs.free
      pages := building.pages.free
      socks := socks
      files := files
      fds := building.fds ▸ .refl _
      current := building.current }

/-- `done1` gives back the context. -/
theorem restored_done1 (first : s.zallocCtx ctx = some s₁) :
    s.Restored ((s₁.setPage ctx none).freeCtx ctx) := by
  rcases zallocCtx_eq_some first with ⟨fresh, rfl⟩
  exact { Restored.refl s with ctxs := (((Heap.Acquired.malloc fresh).store _).store _).free }

theorem Building.sockCreate (building : s.Building s₁ ctx page) (socks : s₁.socks = s.socks)
    {sock : SockAddr} (created : s₁.sockCreate ctx sock = some s₂) :
    s.Building s₂ ctx page ∧ Heap.Acquired s.socks s₂.socks sock ∧
      (s₂.ctxs.word ctx).autoLockSock = some sock ∧ s₂.files = s₁.files := by
  rcases sockCreate_eq_some created with ⟨fresh, rfl⟩
  refine ⟨(building.withSocks _).setSock _, ?_, ?_, rfl⟩
  · rw [socks] at fresh
    simpa only [KernelObjects.setSock, socks] using (Heap.Acquired.malloc fresh).store none
  · simp [KernelObjects.setSock]

/-- What `auto_lock_get_file` leaves: nothing, or a file that has not been there. -/
theorem Building.getFile (building : s.Building s₁ ctx page) (socks : s₁.socks = s.socks)
    (files : s₁.files = s.files) {sock : Except Errno SockAddr} {file : Except Errno FileAddr}
    {result : Except Errno FileAddr}
    (gotten : s₁.autoLockGetFile configUnix ctx sock file = some (s₂, result)) :
    s.Building s₂ ctx page ∧
      match result with
      | .error _ =>
          (exists step, getFileFailure configUnix sock file = some step ∧ step ≠ .descriptor) ∧
            Heap.Restored s.socks s₂.socks ∧ Heap.Restored s.files s₂.files
      | .ok opened =>
          getFileFailure configUnix sock file = none ∧ Heap.Acquired s.files s₂.files opened := by
  have socksKept : Heap.Restored s.socks s₁.socks := socks ▸ .refl _
  have filesKept : Heap.Restored s.files s₁.files := files ▸ .refl _
  have filesOpened : forall opened (fresh : s₁.files.live opened = false),
      Heap.Acquired s.files ((s₁.files.malloc opened fresh).store opened ctx) opened := by
    rw [files]
    exact fun opened fresh => (Heap.Acquired.malloc fresh).store ctx
  cases configUnix with
  | false =>
      cases file with
      | error err =>
          cases gotten
          exact ⟨building, ⟨.file, rfl, nofun⟩, socksKept, filesKept⟩
      | ok opened =>
          simp only [autoLockGetFile, Bool.false_eq_true, if_false, Option.bind_eq_bind,
            Option.bind_eq_some_iff] at gotten
          rcases gotten with ⟨s₃, first, done⟩
          cases done
          rcases getFile_eq_some first with ⟨fresh, rfl⟩
          exact ⟨building.withFiles _, rfl, filesOpened opened fresh⟩
  | true =>
      cases sock with
      | error err =>
          cases gotten
          exact ⟨building, ⟨.socket, rfl, nofun⟩, socksKept, filesKept⟩
      | ok created =>
          simp only [autoLockGetFile, if_true, Option.bind_eq_bind,
            Option.bind_eq_some_iff] at gotten
          rcases gotten with ⟨s₃, first, rest⟩
          rcases building.sockCreate socks first with ⟨building', sockets, points, sameFiles⟩
          cases file with
          | error err =>
              cases rest
              simp only [releaseSock, points]
              refine ⟨(building'.withSocks _).setSock none,
                ⟨.file, rfl, nofun⟩, sockets.free, ?_⟩
              exact sameFiles.trans files ▸ .refl _
          | ok opened =>
              simp only [Option.bind_eq_some_iff] at rest
              rcases rest with ⟨s₄, second, done⟩
              cases done
              rcases getFile_eq_some second with ⟨fresh, rfl⟩
              refine ⟨(building'.withFiles _).withSocks _, rfl, ?_⟩
              rw [sameFiles] at fresh
              simpa only [setSockFile, sameFiles] using filesOpened opened fresh

theorem autoLockInstallFd_eq_some {file : FileAddr} {fd : Except Errno Nat} {ret : Int}
    (detached : s.current = none)
    (installed : s.autoLockInstallFd ctx file fd = some (s', ret)) :
    match fd with
    | .error err => s' = s ∧ ret = err.ret
    | .ok fd => ret = fd := by
  cases fd with
  | error err =>
      cases installed
      exact ⟨rfl, rfl⟩
  | ok fd =>
      simp only [autoLockInstallFd, Option.bind_eq_bind, Option.bind_eq_some_iff] at installed
      rcases installed with ⟨s₁, first, attached⟩
      rcases getUnusedFd_eq_some first with ⟨fresh, rfl⟩
      simp only [autoCtxAddCtx, detached, Option.isSome_none, Bool.false_eq_true, if_false,
        ne_eq, not_true_eq_false] at attached
      cases attached
      rfl

/-- How a call ends, by the first step that fails. -/
theorem autoLockCreate_effect {ret : Int}
    (created : s.autoLockCreate configUnix out = some (s', ret)) :
    match failure configUnix out s with
    | none => 0 ≤ ret
    | some .descriptor => ret < 0 ∧ exists file, Heap.Acquired s.files s'.files file
    | some _ => ret < 0 ∧ s.Restored s' := by
  unfold autoLockCreate at created
  unfold failure
  by_cases attached : s.current.isSome = true
  · rw [if_pos attached] at created ⊢
    cases created
    exact ⟨by decide, .refl _⟩
  rw [if_neg attached] at created ⊢
  rw [Option.not_isSome_iff_eq_none] at attached
  rcases out with ⟨_ | ctx, page, sock, file, fd⟩
  · cases created
    exact ⟨by decide, .refl _⟩
  simp only [Option.bind_eq_bind, Option.bind_eq_some_iff] at created
  rcases created with ⟨s₁, first, created⟩
  cases page with
  | none =>
      cases created
      exact ⟨by decide, restored_done1 first⟩
  | some page =>
      simp only [Option.bind_eq_some_iff] at created
      rcases created with ⟨s₂, second, ⟨s₃, result⟩, third, created⟩
      have building := Building.start first second
      have start : s₂.socks = s.socks ∧ s₂.files = s.files := by
        rcases zallocCtx_eq_some first with ⟨_, rfl⟩
        rcases allocPage_eq_some second with ⟨_, rfl⟩
        exact ⟨rfl, rfl⟩
      rcases building.getFile start.1 start.2 third with ⟨building', gotten⟩
      cases result with
      | error err =>
          rcases gotten with ⟨⟨step, fails, other⟩, socks, files⟩
          cases created
          have restored := building'.done2 socks files
          simp only [fails]
          cases step <;> first | exact absurd rfl other | exact ⟨err.ret_neg, restored⟩
      | ok opened =>
          rcases gotten with ⟨fine, files⟩
          simp only [Option.bind_eq_some_iff] at created
          rcases created with ⟨⟨s₄, fdRet⟩, fourth, created⟩
          have installed := autoLockInstallFd_eq_some (building'.current.trans attached) fourth
          simp only [fine]
          cases fd with
          | error err =>
              rcases installed with ⟨rfl, rfl⟩
              simp only [err.ret_neg, if_true] at created
              cases created
              refine ⟨err.ret_neg, opened, ?_⟩
              simp only [freeMem, building'.holds, freeCtx]
              exact files
          | ok fd =>
              simp only [installed, Int.not_lt.mpr (Int.natCast_nonneg fd), if_false] at created
              cases created
              exact installed ▸ Int.natCast_nonneg fd

/-- A creation that fails is undone exactly if it is not the descriptor that is missing. -/
theorem autoLockCreate_undone_iff {ret : Int}
    (created : s.autoLockCreate configUnix out = some (s', ret)) :
    (forall step, failure configUnix out s = some step -> ret < 0 ∧ s.Undone s') <->
      failure configUnix out s ≠ some .descriptor := by
  have effect := autoLockCreate_effect created
  constructor
  · intro undone fails
    rw [fails] at effect
    rcases effect with ⟨_, file, acquired⟩
    exact acquired.not_released (undone _ fails).2.files
  · intro other step fails
    rw [fails] at effect other
    cases step <;> first | exact absurd rfl other | exact ⟨effect.1, effect.2.undone⟩

/-! ## The first call of a task -/

/-- Nothing has been allocated. -/
def untouched : KernelObjects where
  ctxs := .empty fun _ => ⟨none, none⟩
  pages := .empty fun _ => ()
  socks := .empty fun _ => none
  files := .empty fun _ => 0
  fds := .empty fun _ => none
  current := none

/-- Everything can be had but a file (`ENFILE`). -/
theorem autoLockCreate_undone_iff_noFile :
    exists s' ret,
      untouched.autoLockCreate true ⟨some 0, some 0, .ok 0, .error ⟨23, by decide⟩, .ok 3⟩ =
          some (s', ret) ∧
        ((forall step, failure true ⟨some 0, some 0, .ok 0, .error ⟨23, by decide⟩, .ok 3⟩ untouched =
            some step -> ret < 0 ∧ untouched.Undone s') <->
          failure true ⟨some 0, some 0, .ok 0, .error ⟨23, by decide⟩, .ok 3⟩ untouched ≠
            some .descriptor) :=
  ⟨_, _, rfl, autoLockCreate_undone_iff rfl⟩

/-- With no descriptor left (`EMFILE`) the file and the socket stay, and the file
points to the context that has been freed. -/
theorem autoLockCreate_leaks :
    exists s' ret,
      untouched.autoLockCreate true ⟨some 0, some 0, .ok 0, .ok 0, .error ⟨24, by decide⟩⟩ =
          some (s', ret) ∧
        ret < 0 ∧ ¬untouched.Undone s' ∧ s'.socks.live 0 = true ∧ s'.files.live 0 = true ∧
          s'.Dangles (.privateData 0 0) := by
  refine ⟨_, _, rfl, by decide, ?_, rfl, rfl, rfl, rfl, rfl⟩
  intro undone
  have released := congrFun undone.files.live 0
  exact absurd released (by decide)

end KernelObjects

end Kernel
end Autolock
