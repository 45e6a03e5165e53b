import Autolock.Kernel.CachedTranslation
import Autolock.UserLocks.LockBase

namespace Autolock
namespace Kernel

open Concurrency UserLocks

/-!
# The threads of a lock together with their contexts

A lock is modelled with a kernel that compares a word with a page whenever it
likes.  The code does so through a mapping that it has cached when the thread went
off the processor, and when it cannot map the word it clears `watch_mem` of the page
itself.  Here every thread has its context, on which the kernel may act between any
two of its steps.
-/

/-- Where the words are that the threads of a lock may watch: aligned, on ordinary
pages that stay mapped, and not in the first two megabytes.  `kernelWord` is what
there is at an address of the kernel, given the rest of its memory. -/
structure WatchedWords (Page Shared Addr : Type) where
  world : LinearMap Page
  pageTable : PageTable Page
  address : Addr -> BitVec 64
  frame : Addr -> Page
  read : Shared -> Addr -> UInt32
  kernelWord : Shared -> (BitVec 64 -> BitVec 32) -> BitVec 64 -> BitVec 32
  mapped : forall w, pageTable (vpn (address w)) = some (frame w)
  ordinary : forall w, world.pageCompound (frame w) = false
  aligned : forall w, (address w).toNat % 4 = 0
  above : forall w, 0x1fffff < (address w).toNat
  shows : forall shared rest w addr,
    world.kernelByte addr = world.userByte pageTable (address w) ->
    kernelWord shared rest addr = (read shared w).toBitVec

/-- A thread with the context of its task. -/
structure WatchedTask (Local Page : Type) where
  thread : Local
  kernel : KernelState Page
  phase : Phase

/-- A step of the thread, or of the kernel on its context.  A step of the thread that
leaves `watch_mem` of its page as it was may have stored the same value `again`. -/
inductive WatchedAction (Action Page : Type) where
  | thread (action : Action) (again : Bool)
  | kernel (op : Op Page)

inductive WatchedEvent (Event : Type) where
  | thread (event : Event)
  | kernel (event : SpaceEvent)
  deriving DecidableEq, Repr

namespace WatchedWords

variable {Tid Page Shared Addr Local Action Event : Type}

section definitions

variable [DecidableEq Addr] [DecidableEq Page] (words : WatchedWords Page Shared Addr)

omit [DecidableEq Addr] [DecidableEq Page] in
/-- The value of `watch_mem` that stands for a word. -/
def pointer : Option Addr -> BitVec 64
  | none => 0
  | some w => words.address w

omit [DecidableEq Page] in
/-- The shared page after a step of the thread.  What the kernel has stored into
`watch_mem` stays until the thread stores there. -/
def stored (before after : KernelAutolockAbi Addr) (again : Bool) (autoLock : AutoLock) :
    AutoLock where
  watchMem :=
    if before.watchMem = after.watchMem ∧ again = false then autoLock.watchMem
    else words.pointer after.watchMem
  watchFor := after.watchFor.toBitVec
  watchNeq := after.watchNeq.toBitVec

omit [DecidableEq Addr] [DecidableEq Page] in
/-- A check finds the memory that the threads share; the action only says what the
rest contains. -/
def inMemory (shared : Shared) : Op Page -> Op Page
  | .checkMem rest => .checkMem (words.kernelWord shared rest)
  | op => op

/-- One step of a task.  A pin gives the page that is mapped at the address. -/
def step (user : Program Tid Shared Local Action Event) (page : Local -> KernelAutolockAbi Addr)
    (t : Tid) (action : WatchedAction Action Page) (shared : Shared) (l : WatchedTask Local Page) :
    Option (Shared × WatchedTask Local Page × WatchedEvent Event) :=
  match action with
  | .thread action again =>
      (user.step t action shared l.thread).map fun result =>
        (result.1,
          { l with
            thread := result.2.1
            kernel := { l.kernel with
              autoLock := words.stored (page l.thread) (page result.2.1) again
                l.kernel.autoLock } },
          .thread result.2.2)
  | .kernel op =>
      (MappedState.step words.world .kernel (.context (words.inMemory shared op))
          ⟨l.kernel, words.pageTable⟩ l.phase).map fun result =>
        (shared, { l with kernel := result.1.kernel, phase := result.2.1 }, .kernel result.2.2)

def program (user : Program Tid Shared Local Action Event)
    (page : Local -> KernelAutolockAbi Addr) :
    Program Tid Shared (WatchedTask Local Page) (WatchedAction Action Page) (WatchedEvent Event) where
  step := words.step user page

omit [DecidableEq Addr] [DecidableEq Page] in
/-- The page as the kernel finds it. -/
def abi (page : KernelAutolockAbi Addr) : AutoLock where
  watchMem := words.pointer page.watchMem
  watchFor := page.watchFor.toBitVec
  watchNeq := page.watchNeq.toBitVec

/-- What the threads themselves see. -/
def threads (s : Machine Tid Shared (WatchedTask Local Page)) : Machine Tid Shared Local where
  shared := s.shared
  thread := fun t => (s.thread t).thread

omit [DecidableEq Addr] [DecidableEq Page] in
/-- The lock has been initialised, and the contexts have just been created. -/
def init (userInit : Machine Tid Shared Local -> Prop) (page : Local -> KernelAutolockAbi Addr)
    (s : Machine Tid Shared (WatchedTask Local Page)) : Prop :=
  userInit (threads s) ∧ forall t, (s.thread t).phase = .idle ∧
    (s.thread t).kernel =
      ⟨words.abi (page (s.thread t).thread), .zeroed, fun _ => 0, fun _ => 0⟩

abbrev system [DecidableEq Tid] (user : Program Tid Shared Local Action Event)
    (userInit : Machine Tid Shared Local -> Prop) (page : Local -> KernelAutolockAbi Addr) :=
  (words.program user page).system (words.init userInit page)

/-- The labels of the threads. -/
def ofThread : Tid × WatchedEvent Event -> Option (Tid × Event)
  | (t, .thread event) => some (t, event)
  | (_, .kernel _) => none

end definitions

end WatchedWords

/-- `auto_lock_dont_sched` of a task that has a context. -/
def KernelState.autoLockDontSched {Page : Type} (k : KernelState Page)
    (mem : BitVec 64 -> BitVec 32) : Bool :=
  k.isArmed &&
    match k.checkMem mem with
    | .read _ dontSched => dontSched
    | _ => false

/-! ## The mapping in a context -/

theorem vpn_and_pageMask (addr : BitVec 64) : vpn (addr &&& pageMask) = vpn addr := by
  have small : addr.toNat / 2 ^ 12 < 2 ^ 52 := by
    have := addr.isLt
    omega
  have high : pageMask.toNat / 2 ^ 12 = 2 ^ 52 - 1 := by decide
  unfold vpn
  rw [BitVec.toNat_and, show 4096 = 2 ^ 12 from rfl, Nat.and_div_two_pow, high,
    Nat.and_two_pow_sub_one_eq_mod, Nat.mod_eq_of_lt small]

namespace WatchedWords

variable {Tid Page Shared Addr Local Action Event : Type} {words : WatchedWords Page Shared Addr}

theorem world_kmap_ne_zero (world : LinearMap Page) (page : Page) : world.kmap page ≠ 0 := by
  intro unmapped
  have linear := world.linear page
  have high := world.high
  rw [unmapped] at linear
  change 0 = _ at linear
  omega

/-- What the context keeps is the mapping of the page of a word, or none that a word
could be in. -/
structure MapsWord (words : WatchedWords Page Shared Addr) (ctx : AutoLockCtx Page) : Prop where
  mask : ctx.usrVirtPageMask = 0 ∨ ctx.usrVirtPageMask = 0xfff ∨ ctx.usrVirtPageMask = 0x1fffff
  start : ctx.usrVirtPageStart = 0 ∨ exists w,
    ctx = ⟨words.address w &&& pageMask, 0xfff, words.world.kmap (words.frame w),
      some (words.frame w)⟩
  present : ctx.kernVirtPage ≠ 0 -> ctx.page ≠ none

namespace MapsWord

variable {ctx : AutoLockCtx Page} {k k' : KernelState Page}

theorem zeroed : words.MapsWord (.zeroed : AutoLockCtx Page) where
  mask := .inl rfl
  start := .inl rfl
  present := fun mapped => absurd rfl mapped

/-- A word that counts as mapped is in the page that is mapped. -/
theorem page_of_mapped (ok : words.MapsWord ctx) {w : Addr}
    (isMapped : ctx.usrPageIsMapped (words.address w) = true) :
    ctx.usrVirtPageMask = 0xfff ∧ ctx.kernVirtPage = words.world.kmap (words.frame w) ∧
      ctx.page = some (words.frame w) := by
  rw [AutoLockCtx.usrPageIsMapped, beq_iff_eq] at isMapped
  rcases ok.start with nothing | ⟨w', rfl⟩
  · rw [nothing] at isMapped
    have low : (words.address w).toNat ≤ ctx.usrVirtPageMask.toNat :=
      le_of_and_not_eq_zero isMapped
    have small : ctx.usrVirtPageMask.toNat ≤ 0x1fffff := by
      rcases ok.mask with mask | mask | mask <;> rw [mask] <;> decide
    exact absurd (words.above w) (Nat.not_lt.mpr (Nat.le_trans low small))
  · have samePage : vpn (words.address w) = vpn (words.address w') := by
      rw [← vpn_and_pageMask (words.address w), ← vpn_and_pageMask (words.address w')]
      exact congrArg vpn isMapped
    have sameFrame := words.mapped w
    rw [samePage, words.mapped w'] at sameFrame
    rw [← Option.some.inj sameFrame]
    exact ⟨rfl, rfl, rfl⟩

variable [DecidableEq Page]

theorem unpinPages (ok : words.MapsWord k.ctx) (page : Page) :
    words.MapsWord (k.unpinPages words.world.toPageWorld page).ctx where
  mask := ok.mask
  start := .inl rfl
  present := fun mapped => absurd rfl mapped

theorem checkUnpinPages (ok : words.MapsWord k.ctx) :
    words.MapsWord (k.checkUnpinPages words.world.toPageWorld).ctx := by
  unfold KernelState.checkUnpinPages
  split
  · exact ok
  · exact ok.unpinPages _

/-- `watch_mem` is NULL or the address of a word. -/
def Points (words : WatchedWords Page Shared Addr) (watchMem : BitVec 64) : Prop :=
  watchMem = 0 ∨ exists w, watchMem = words.address w

theorem pinAndMap (ok : words.MapsWord k.ctx) {usrVirtAddr : BitVec 64}
    (points : Points words usrVirtAddr) {result : Except Int Page}
    (gives : forall page, result = .ok page -> words.pageTable (vpn usrVirtAddr) = some page) :
    words.MapsWord (k.pinAndMap words.world.toPageWorld usrVirtAddr result).1.ctx := by
  cases result with
  | error ret => exact ok
  | ok page =>
      have linear := world_kmap_ne_zero words.world
      cases huge : words.world.pageCompound page <;>
        simp only [KernelState.pinAndMap, huge, Bool.false_eq_true, if_true, if_false, linear]
      · refine ⟨.inr (.inl rfl), ?_, fun _ => Option.some_ne_none _⟩
        rcases points with rfl | ⟨w, rfl⟩
        · exact .inl rfl
        · rcases Option.some.inj ((words.mapped w).symm.trans (gives page rfl)) with rfl
          exact .inr ⟨w, rfl⟩
      · refine ⟨.inr (.inr rfl), .inl ?_, fun _ => Option.some_ne_none _⟩
        rcases points with rfl | ⟨w, rfl⟩
        · rfl
        · rcases Option.some.inj ((words.mapped w).symm.trans (gives page rfl)) with rfl
          rw [words.ordinary w] at huge
          cases huge

theorem cachePhysAddr (ok : words.MapsWord k.ctx) (points : Points words k.autoLock.watchMem)
    {result : Except Int Page}
    (gives : forall page, result = .ok page ->
      words.pageTable (vpn k.autoLock.watchMem) = some page) :
    exists k' ret, k.cachePhysAddr words.world.toPageWorld result = some (k', ret) ∧
      words.MapsWord k'.ctx := by
  unfold KernelState.cachePhysAddr
  dsimp only
  split
  · exact ⟨k, 0, rfl, ok⟩
  · split
    · exact ⟨_, _, rfl, ok.pinAndMap points gives⟩
    · next mapped =>
        split
        · next absent => exact absurd absent (ok.present mapped)
        · next page _ => exact ⟨_, _, rfl, (ok.unpinPages page).pinAndMap points gives⟩

end MapsWord

/-! ## The page that both sides see -/

/-- The kernel finds what the thread has stored, unless it has cleared `watch_mem`. -/
structure Agrees (words : WatchedWords Page Shared Addr) (page : KernelAutolockAbi Addr)
    (autoLock : AutoLock) : Prop where
  watchFor : autoLock.watchFor = page.watchFor.toBitVec
  watchNeq : autoLock.watchNeq = page.watchNeq.toBitVec
  watchMem : autoLock.watchMem = 0 ∨ autoLock.watchMem = words.pointer page.watchMem

namespace Agrees

variable {page : KernelAutolockAbi Addr} {autoLock : AutoLock} {k k' : KernelState Page}

theorem of_abi : words.Agrees page (words.abi page) :=
  ⟨rfl, rfl, .inr rfl⟩

theorem points (agrees : words.Agrees page autoLock) : MapsWord.Points words autoLock.watchMem := by
  rcases agrees.watchMem with cleared | kept
  · exact .inl cleared
  · rw [kept]
    cases page.watchMem with
    | none => exact .inl rfl
    | some w => exact .inr ⟨w, rfl⟩

theorem stored [DecidableEq Addr] {before : KernelAutolockAbi Addr}
    (agrees : words.Agrees before autoLock) (again : Bool) :
    words.Agrees page (words.stored before page again autoLock) where
  watchFor := rfl
  watchNeq := rfl
  watchMem := by
    unfold WatchedWords.stored
    split
    · next same =>
        rw [← same.1]
        exact agrees.watchMem
    · exact .inr rfl

theorem cleared (agrees : words.Agrees page autoLock) :
    words.Agrees page { autoLock with watchMem := 0 } :=
  ⟨agrees.watchFor, agrees.watchNeq, .inl rfl⟩

variable [DecidableEq Page]

theorem pinAndMap (agrees : words.Agrees page k.autoLock) (usrVirtAddr : BitVec 64)
    (result : Except Int Page) : words.Agrees page
      (k.pinAndMap words.world.toPageWorld usrVirtAddr result).1.autoLock := by
  cases result with
  | error ret => exact agrees.cleared
  | ok found =>
      have linear := world_kmap_ne_zero words.world
      cases huge : words.world.pageCompound found <;>
        simpa only [KernelState.pinAndMap, huge, Bool.false_eq_true, if_true, if_false, linear]
          using agrees

theorem cachePhysAddr (agrees : words.Agrees page k.autoLock) {result : Except Int Page}
    {ret : Int} (done : k.cachePhysAddr words.world.toPageWorld result = some (k', ret)) :
    words.Agrees page k'.autoLock := by
  simp only [KernelState.cachePhysAddr] at done
  split at done
  · cases done
    exact agrees
  · split at done
    · have pinned := agrees.pinAndMap k.autoLock.watchMem result
      rwa [Option.some.inj done] at pinned
    · split at done
      · cases done
      · next cached _ =>
          have unpinned : words.Agrees page
              (k.unpinPages words.world.toPageWorld cached).autoLock := agrees
          have pinned := unpinned.pinAndMap k.autoLock.watchMem result
          rwa [Option.some.inj done] at pinned

theorem checkUnpinPages (agrees : words.Agrees page k.autoLock) :
    words.Agrees page (k.checkUnpinPages words.world.toPageWorld).autoLock := by
  unfold KernelState.checkUnpinPages
  split <;> exact agrees

end Agrees

/-! ## What a check decides -/

section check

variable {page : KernelAutolockAbi Addr} {k : KernelState Page} {w : Addr}

/-- Through the mapping the kernel finds the word that the thread watches. -/
theorem kernelWord_watched (watched : k.autoLock.watchMem = words.address w)
    (mask : k.ctx.usrVirtPageMask = 0xfff)
    (mapping : k.ctx.kernVirtPage = words.world.kmap (words.frame w)) (shared : Shared)
    (rest : BitVec 64 -> BitVec 32) :
    words.kernelWord shared rest
        (k.ctx.kernVirtPage + (k.autoLock.watchMem &&& k.ctx.usrVirtPageMask)) =
      (words.read shared w).toBitVec := by
  let m : MappedState Page := ⟨k, words.pageTable⟩
  have entry : m.pageTable (vpn m.kernel.autoLock.watchMem) = some (words.frame w) := by
    show words.pageTable (vpn k.autoLock.watchMem) = _
    rw [watched]
    exact words.mapped w
  have aligned : m.kernel.autoLock.watchMem.toNat % 4 = 0 := by
    show k.autoLock.watchMem.toNat % 4 = 0
    rw [watched]
    exact words.aligned w
  have still : m.StillMapped words.world (words.frame w) := stillMapped_of_entry mask entry aligned
  have reads := (readsWatched_iff (m := m) mapping (.inl mask)).mpr still
  refine words.shows shared rest w _ ?_
  rw [← watched]
  exact reads.first.symm

theorem toBitVec_bne (a b : UInt32) : (a.toBitVec != b.toBitVec) = (a != b) := by
  rw [Bool.eq_iff_iff]
  simp [UInt32.toBitVec_inj]

/-- A check decides as the predicate on the page does, and never runs into `BUG()`. -/
theorem checkMem_held (ok : words.MapsWord k.ctx) (agrees : words.Agrees page k.autoLock)
    (shared : Shared) (rest : BitVec 64 -> BitVec 32) :
    k.checkMem (words.kernelWord shared rest) ≠ .bug ∧
      forall addr dontSched, k.checkMem (words.kernelWord shared rest) = .read addr dontSched ->
        dontSched = page.held (words.read shared) := by
  by_cases isNull : k.autoLock.watchMem = 0
  · simp [KernelState.checkMem, isNull]
  · have watches := agrees.watchMem.resolve_left isNull
    cases armed : page.watchMem with
    | none =>
        rw [armed] at watches
        exact absurd watches isNull
    | some w =>
        rw [armed] at watches
        cases isMapped : k.ctx.usrPageIsMapped k.autoLock.watchMem with
        | false => simp [KernelState.checkMem, isMapped]
        | true =>
            have here := isMapped
            rw [watches] at here
            rcases ok.page_of_mapped here with ⟨mask, mapping, present⟩
            have mapped : k.ctx.kernVirtPage ≠ 0 := mapping ▸ world_kmap_ne_zero _ _
            have word := kernelWord_watched watches mask mapping shared rest
            have reached : ¬(k.ctx.kernVirtPage = 0 ∨ k.ctx.page.isNone = true) := by
              rw [present]
              rintro (unmapped | absent)
              · exact mapped unmapped
              · cases absent
            simp only [KernelState.checkMem, isNull, isMapped, if_false, reached,
              Bool.true_eq_false]
            constructor
            · intro isBug
              cases isBug
            · intro addr dontSched reads
              rw [← (Event.read.inj reads).2, word, agrees.watchFor, agrees.watchNeq, toBitVec_bne]
              simp only [KernelAutolockAbi.held, armed]
              refine if_congr ?_ rfl rfl
              rw [beq_iff_eq, beq_iff_eq, ← UInt32.toBitVec_inj]
              exact Iff.rfl

/-- The scheduler is told to pass over a task only if the predicate says so. -/
theorem held_of_autoLockDontSched (ok : words.MapsWord k.ctx)
    (agrees : words.Agrees page k.autoLock) {shared : Shared} {rest : BitVec 64 -> BitVec 32}
    (passedOver : k.autoLockDontSched (words.kernelWord shared rest) = true) :
    page.held (words.read shared) = true := by
  rw [KernelState.autoLockDontSched, Bool.and_eq_true] at passedOver
  have decided := passedOver.2
  split at decided
  · next addr dontSched reads =>
      rw [← (checkMem_held ok agrees shared rest).2 addr dontSched reads]
      exact decided
  · cases decided

end check

/-! ## Every step of every task -/

/-- The kernel is not stopped, and holds a task back exactly if the predicate says so. -/
def Right (held : Bool) : SpaceEvent -> Prop
  | .context .bug => False
  | .context (.read _ dontSched) => dontSched = held
  | _ => True

/-- The context of a task and its page are in order. -/
structure TaskOk (words : WatchedWords Page Shared Addr) (page : KernelAutolockAbi Addr)
    (kernel : KernelState Page) : Prop where
  maps : words.MapsWord kernel.ctx
  agrees : words.Agrees page kernel.autoLock

section steps

variable [DecidableEq Page] {page : KernelAutolockAbi Addr} {k : KernelState Page}
  {m' : MappedState Page} {op : Op Page} {phase phase' : Phase} {shared : Shared}
  {event : SpaceEvent}

omit [DecidableEq Page] in
theorem right_checkMem (ok : words.TaskOk page k) (rest : BitVec 64 -> BitVec 32) :
    Right (page.held (words.read shared))
      (.context (k.checkMem (words.kernelWord shared rest))) := by
  rcases checkMem_held ok.maps ok.agrees shared rest with ⟨noBug, decides⟩
  cases checked : k.checkMem (words.kernelWord shared rest) with
  | bug => exact absurd checked noBug
  | read addr dontSched => exact decides addr dontSched checked
  | wrote | armed | returned | dearmed | released => trivial

/-- The kernel keeps the context in order, and decides as it should. -/
theorem kernel_step (ok : words.TaskOk page k)
    (stepped : MappedState.step words.world .kernel (.context (words.inMemory shared op))
      ⟨k, words.pageTable⟩ phase = some (m', phase', event)) :
    words.TaskOk page m'.kernel ∧ Right (page.held (words.read shared)) event := by
  simp only [MappedState.step] at stepped
  split at stepped
  case isFalse => cases stepped
  case isTrue pinGives =>
    cases op <;> cases phase <;>
      simp only [inMemory, KernelState.step, Option.map_none, reduceCtorEq] at stepped
    case cachePhysAddr.idle =>
      split at stepped <;> cases stepped <;> exact ⟨ok, trivial⟩
    case dontSched.idle =>
      split at stepped <;> cases stepped <;> exact ⟨ok, trivial⟩
    case pinUserPages.caching result =>
      have gives : forall found, result = .ok found ->
          words.pageTable (vpn k.autoLock.watchMem) = some found := by
        rintro found rfl
        exact pinGives
      rcases ok.maps.cachePhysAddr ok.agrees.points gives with ⟨k', ret, done, maps⟩
      rw [done] at stepped
      cases stepped
      exact ⟨⟨maps, ok.agrees.cachePhysAddr done⟩, trivial⟩
    case checkMem.checking rest =>
      cases stepped
      exact ⟨ok, right_checkMem ok rest⟩
    case dearm.idle =>
      cases stepped
      exact ⟨⟨ok.maps.checkUnpinPages, ok.agrees.checkUnpinPages.cleared⟩, trivial⟩
    case release.idle =>
      cases stepped
      exact ⟨⟨ok.maps.checkUnpinPages, ok.agrees.checkUnpinPages⟩, trivial⟩

end steps

/-! ## Runs -/

section runs

variable [DecidableEq Page] [DecidableEq Addr] [DecidableEq Tid]
  {user : Program Tid Shared Local Action Event} {userInit : Machine Tid Shared Local -> Prop}
  {page : Local -> KernelAutolockAbi Addr}
  {trace : List (Tid × WatchedEvent Event)} {s s' : Machine Tid Shared (WatchedTask Local Page)}
  {label : Tid × WatchedEvent Event}

/-- A step is one of the thread, which the lock takes, or one of the kernel, which the
threads do not see. -/
theorem step_cases (moved : (words.system user userInit page).next s label s') :
    (exists event, label.2 = .thread event ∧
      (user.system userInit).next (threads s) (label.1, event) (threads s')) ∨
    (exists event, label.2 = .kernel event ∧ threads s' = threads s) := by
  rcases label with ⟨t, event⟩
  rcases Program.system_next moved with ⟨action, shared', l', stepped, rfl⟩
  have others : forall u, u ≠ t ->
      (Function.update s.thread t l' u).thread = (s.thread u).thread :=
    fun u different => by rw [Function.update_of_ne different]
  cases action with
  | thread action again =>
      rcases Option.map_eq_some_iff.mp stepped with ⟨⟨shared₁, l₁, event₁⟩, enabled, rebuilt⟩
      cases rebuilt
      refine .inl ⟨event₁, rfl, action, ?_⟩
      simp only [Program.next, threads, enabled, Option.map_some, Option.some.injEq,
        Prod.mk.injEq, Machine.mk.injEq, and_true, true_and]
      funext u
      by_cases same : u = t
      · subst same
        simp
      · rw [Function.update_of_ne same, others u same]
  | kernel op =>
      rcases Option.map_eq_some_iff.mp stepped with ⟨⟨m', phase', event₁⟩, enabled, rebuilt⟩
      cases rebuilt
      refine .inr ⟨event₁, rfl, congrArg (Machine.mk _) (funext fun u => ?_)⟩
      by_cases same : u = t
      · subst same
        simp
      · exact others u same

/-- Every decision of the kernel is the one that the predicate on the page of the task
gives, and no check of its code fails. -/
def decidesAsHeld (words : WatchedWords Page Shared Addr) (page : Local -> KernelAutolockAbi Addr)
    (s : Machine Tid Shared (WatchedTask Local Page)) (label : Tid × WatchedEvent Event)
    (_ : Machine Tid Shared (WatchedTask Local Page)) : Prop :=
  forall event, label.2 = .kernel event ->
    Right ((page (s.thread label.1).thread).held (words.read s.shared)) event

/-- All contexts and pages are in order. -/
def TasksOk (words : WatchedWords Page Shared Addr) (page : Local -> KernelAutolockAbi Addr)
    (s : Machine Tid Shared (WatchedTask Local Page)) : Prop :=
  forall t, words.TaskOk (page (s.thread t).thread) (s.thread t).kernel

omit [DecidableEq Page] [DecidableEq Addr] [DecidableEq Tid] in
theorem tasksOk_init (initial : words.init userInit page s) : words.TasksOk page s := by
  intro t
  rw [(initial.2 t).2]
  exact ⟨.zeroed, .of_abi⟩

theorem tasksOk_step (ok : words.TasksOk page s)
    (moved : (words.system user userInit page).next s label s') :
    words.TasksOk page s' ∧ decidesAsHeld words page s label s' := by
  rcases label with ⟨t, event⟩
  rcases Program.system_next moved with ⟨action, shared', l', stepped, rfl⟩
  have others := fun u (_ : u ≠ t) => ok u
  cases action with
  | thread action again =>
      rcases Option.map_eq_some_iff.mp stepped with ⟨result, enabled, rebuilt⟩
      cases rebuilt
      refine ⟨?_, nofun⟩
      refine (Function.forall_update_iff s.thread fun u (l : WatchedTask Local Page) =>
        words.TaskOk (page l.thread) l.kernel).mpr ⟨?_, others⟩
      exact ⟨(ok t).maps, (ok t).agrees.stored again⟩
  | kernel op =>
      rcases Option.map_eq_some_iff.mp stepped with ⟨⟨m', phase', event₁⟩, enabled, rebuilt⟩
      cases rebuilt
      rcases kernel_step (ok t) enabled with ⟨ok', right⟩
      refine ⟨?_, fun event same => ?_⟩
      · exact (Function.forall_update_iff s.thread fun u (l : WatchedTask Local Page) =>
          words.TaskOk (page l.thread) l.kernel).mpr ⟨ok', others⟩
      · cases same
        exact right

theorem tasksOk_of_run
    (run : (words.system user userInit page).Run TransitionSystem.unguarded trace s) :
    words.TasksOk page s :=
  run.invariant (fun _ => words.TasksOk page) (fun _ => tasksOk_init)
    fun _ _ _ _ ok moved _ => (tasksOk_step ok moved).1

/-- The threads take the steps of the lock. -/
theorem threads_run
    (run : (words.system user userInit page).Run TransitionSystem.unguarded trace s) :
    (user.system userInit).Run TransitionSystem.unguarded (trace.filterMap ofThread)
      (threads s) := by
  induction run with
  | start initial => exact .start initial.1
  | @step trace s label s' _ moved _ inductionHypothesis =>
      rcases label with ⟨t, event⟩
      rw [List.filterMap_append]
      rcases step_cases moved with ⟨event', same, stepped⟩ | ⟨event', same, unseen⟩ <;> cases same
      · exact inductionHypothesis.step stepped trivial
      · rw [unseen]
        exact (List.append_nil _).symm ▸ inductionHypothesis

/-- However the steps of the threads and of the kernel on their contexts interleave, the
threads have a run of the lock, in which the kernel decides by the predicate on the pages. -/
theorem contexts_refine
    (run : (words.system user userInit page).Run TransitionSystem.unguarded trace s) :
    (user.system userInit).Run TransitionSystem.unguarded (trace.filterMap ofThread)
        (threads s) ∧
      (words.system user userInit page).Run (fun _ => decidesAsHeld words page) trace s :=
  ⟨threads_run run,
    run.each (fun _ => tasksOk_init) fun _ _ _ ok moved => tasksOk_step ok moved⟩

end runs

/-! ## A base lock with one waiter -/

/-- The first of the four frames. -/
def firstFrame : Fin 4 := (Fin.last 3).rev

/-- The lock word is the third word of the only page that is mapped. -/
def loneLock : WatchedWords (Fin 4) (UserLockBase Bool) LockBaseWord where
  world := smallMemory
  pageTable := fun page => if page = 0x300 then some firstFrame else none
  address := fun _ => 0x300008
  frame := fun _ => firstFrame
  read := UserLockBase.read
  kernelWord := fun lock rest addr =>
    if addr = 0x8000000000000008 then lock.mem.toBitVec else rest addr
  mapped := fun _ => rfl
  ordinary := fun _ => rfl
  aligned := fun _ => rfl
  above := fun _ => by decide
  shows := by
    intro lock rest w addr same
    have byte : smallMemory.kernelByte addr = some 8 := same
    rw [if_pos, UserLockBase.read]
    unfold LinearMap.kernelByte at byte
    split at byte
    · next high =>
        have offset := Option.some.inj byte
        apply BitVec.eq_of_toNat_eq
        change 2 ^ 63 ≤ _ at high
        change _ - 2 ^ 63 = 8 at offset
        change addr.toNat = 2 ^ 63 + 8
        omega
    · cases byte

/-- The base lock with autolock alone. -/
def spinAutolock : LockBaseConfig := ⟨true, false, false, false, false⟩

abbrev loneLockProgram :=
  loneLock.program (LockBase.program Bool spinAutolock) LockBaseThread.page

def loneLockStart : Machine Bool (UserLockBase Bool) (WatchedTask LockBaseThread (Fin 4)) where
  shared := (LockBase.fresh Bool spinAutolock).shared
  thread := fun _ => ⟨⟨.outside, ⟨none, 0, 0⟩⟩, ⟨⟨0, 0, 0⟩, .zeroed, fun _ => 0, fun _ => 0⟩, .idle⟩

/-- One thread takes the lock, the other one arms its page and goes off the processor. -/
def heldBack : List (Bool × WatchedAction (LockBaseAction Bool) (Fin 4)) :=
  [(false, .thread .callLock false), (false, .thread .run false), (false, .thread .run false),
    (true, .thread .callLock false)] ++ List.replicate 5 (true, .thread .run false) ++
    [(true, .kernel .cachePhysAddr), (true, .kernel (.pinUserPages (.ok firstFrame))),
      (true, .kernel .dontSched), (true, .kernel (.checkMem fun _ => 0))]

theorem loneLock_init : loneLock.init (LockBase.init spinAutolock) LockBaseThread.page
    loneLockStart :=
  ⟨LockBase.fresh_init spinAutolock, fun _ => ⟨rfl, rfl⟩⟩

theorem contexts_refine_heldBack :
    let s := (loneLockProgram.play heldBack loneLockStart).1
    let trace := (loneLockProgram.play heldBack loneLockStart).2
    (true, .kernel (.context (.read 0x8000000000000008 true))) ∈ trace ∧
      (LockBase.system spinAutolock).Run TransitionSystem.unguarded
        (trace.filterMap ofThread) (threads s) ∧
      (loneLock.system (LockBase.program Bool spinAutolock) (LockBase.init spinAutolock)
        LockBaseThread.page).Run (fun _ => decidesAsHeld loneLock LockBaseThread.page) trace s :=
  ⟨by decide, contexts_refine (Program.run_play loneLock_init heldBack (by decide))⟩

end WatchedWords

end Kernel
end Autolock
