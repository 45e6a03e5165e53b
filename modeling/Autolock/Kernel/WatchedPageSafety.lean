import Autolock.Kernel.WatchedPage

namespace Autolock
namespace Kernel

open Concurrency

/-!
# What the checks of the watched page may read

The context is in step with the page counts as long as nothing is unpinned
twice: exactly the cached page is pinned and mapped, once.  A check is then
safe under a condition on the address and the context alone.  After an unpin
that no new mapping follows, the mask of the last mapping is still there and
its start is zero, so that every small address counts as mapped; and an
address near the end of its page, or in a compound page of less than two
megabytes, may have its word outside the page.
-/

/-! ## Masks of low bits -/

theorem and_not_eq_zero_iff {a mask : BitVec 64} : a &&& ~~~mask = 0 <-> a &&& mask = a := by
  constructor
  · intro outside
    ext i bound
    have bit : (a &&& ~~~mask)[i] = false := by simp [outside]
    rw [BitVec.getElem_and, BitVec.getElem_not] at bit
    rw [BitVec.getElem_and]
    revert bit
    cases a[i] <;> cases mask[i] <;> decide
  · intro inside
    rw [← inside, BitVec.and_assoc, BitVec.and_not_self]
    exact BitVec.and_zero

/-- What lies within a mask is not above it. -/
theorem le_of_and_not_eq_zero {a mask : BitVec 64} (outside : a &&& ~~~mask = 0) : a ≤ mask := by
  have inside : a &&& mask = a := and_not_eq_zero_iff.mp outside
  rw [BitVec.le_def, ← inside, BitVec.toNat_and]
  exact Nat.and_le_right

/-- The low bits cover every number up to them. -/
theorem and_not_eq_zero_of_le {a mask : BitVec 64} {bits : Nat} (low : mask.toNat = 2 ^ bits - 1)
    (le : a ≤ mask) : a &&& ~~~mask = 0 := by
  have small : a.toNat < 2 ^ bits := by
    have := Nat.two_pow_pos bits
    rw [BitVec.le_def] at le
    omega
  apply and_not_eq_zero_iff.mpr
  apply BitVec.eq_of_toNat_eq
  rw [BitVec.toNat_and, low, Nat.and_two_pow_sub_one_eq_mod, Nat.mod_eq_of_lt small]

variable {Page : Type} [DecidableEq Page] {world : PageWorld Page}

/-! ## What is asked of a step and of the state before it -/

section conditions

variable (world : PageWorld Page) (k : KernelState Page)

omit [DecidableEq Page] in
/-- The four bytes at a kernel address are inside a page that is pinned and mapped. -/
def InsidePinned (addr : BitVec 64) : Prop :=
  exists page, 0 < k.pins page ∧ 0 < k.maps page ∧
    (world.kmap page).toNat ≤ addr.toNat ∧
    addr.toNat + 4 ≤ (world.kmap page).toNat + world.pageSize page

omit [DecidableEq Page] in
/-- Not `BUG()`, and no read outside the pinned pages. -/
def Safe : Event -> Prop
  | .bug => False
  | .read addr _ => InsidePinned world k addr
  | _ => True

omit [DecidableEq Page] in
/-- While nothing is mapped, the watched address is NULL or above the mask of
the last mapping; otherwise, if it is in the mapped page, its word is too. -/
def CheckFits : Prop :=
  let addr := k.autoLock.watchMem
  if k.ctx.kernVirtPage = 0 then addr = 0 ∨ k.ctx.usrVirtPageMask < addr
  else
    addr = 0 ∨ k.ctx.usrPageIsMapped addr = false ∨
      forall page, page ∈ k.ctx.page ->
        (addr &&& k.ctx.usrVirtPageMask).toNat + 4 ≤ world.pageSize page

omit [DecidableEq Page] in
instance : Decidable (CheckFits world k) := by
  delta CheckFits
  infer_instance

omit [DecidableEq Page] in
/-- The page left in the context is still the pinned one. -/
def UnpinsOnce : Prop :=
  k.ctx.kernVirtPage = 0 -> k.ctx.page = none

instance : Decidable (UnpinsOnce k) :=
  inferInstanceAs (Decidable (_ -> _))

end conditions

/-! ## The context is in step with the counts -/

section counts

omit [DecidableEq Page] in
/-- The page that the context has pinned and mapped. -/
def AutoLockCtx.cached (ctx : AutoLockCtx Page) : Option Page :=
  if ctx.kernVirtPage = 0 then none else ctx.page

/-- One for a page, zero for the others. -/
def oneFor (held : Option Page) (page : Page) : Int :=
  if held = some page then 1 else 0

theorem count_apply (ledger : Page -> Int) (page other : Page) (n : Int) :
    count ledger page n other = ledger other + if other = page then n else 0 := by
  by_cases same : other = page
  · subst same
    simp [count]
  · simp [count, same]

theorem oneFor_none (page : Page) : oneFor none page = 0 := by
  simp [oneFor]

theorem oneFor_some (page other : Page) :
    oneFor (some page) other = if other = page then 1 else 0 := by
  simp [oneFor, eq_comm]

/-- Counting up at a page and down again changes nothing. -/
theorem count_count_neg (ledger : Page -> Int) (page : Page) (n : Int) :
    count (count ledger page n) page (-n) = ledger := by
  funext other
  simp only [count_apply]
  split <;> omega

theorem count_oneFor_none (page : Page) : count (oneFor none) page 1 = oneFor (some page) := by
  funext other
  rw [count_apply, oneFor_none, oneFor_some, Int.zero_add]

theorem count_oneFor_some (page : Page) :
    count (oneFor (some page)) page (-1) = oneFor none := by
  rw [← count_oneFor_none, count_count_neg]

end counts

/-- The cached page, and no other, is pinned and mapped, and the context
describes its mapping. -/
structure CacheOk (world : PageWorld Page) (k : KernelState Page) : Prop where
  mask : k.ctx.usrVirtPageMask = 0 ∨ k.ctx.usrVirtPageMask = 0xfff ∨
    k.ctx.usrVirtPageMask = 0x1fffff
  start : k.ctx.kernVirtPage = 0 -> k.ctx.usrVirtPageStart = 0
  mapping : k.ctx.kernVirtPage ≠ 0 -> exists page, k.ctx.page = some page ∧
    k.ctx.kernVirtPage = world.kmap page ∧ world.compoundHead page = page
  pins : k.pins = oneFor k.ctx.cached
  maps : forall page, world.kmap page ≠ 0 -> k.maps page = oneFor k.ctx.cached page

namespace CacheOk

variable {k : KernelState Page}

theorem created (autoLock : AutoLock) :
    CacheOk world (Kernel.created autoLock : Machine Party (KernelState Page) Phase).shared where
  mask := .inl rfl
  start := fun _ => rfl
  mapping := fun mapped => absurd rfl mapped
  pins := by
    funext page
    simp [Kernel.created, AutoLockCtx.cached, AutoLockCtx.zeroed, oneFor]
  maps := by
    intro page _
    simp [Kernel.created, AutoLockCtx.cached, AutoLockCtx.zeroed, oneFor]

/-- The user's writes change nothing that the context is compared with. -/
theorem write (ok : CacheOk world k) (autoLock : AutoLock) :
    CacheOk world { k with autoLock := autoLock } :=
  ⟨ok.mask, ok.start, ok.mapping, ok.pins, ok.maps⟩

theorem storeNull (ok : CacheOk world k) : CacheOk world k.storeNull :=
  ok.write _

theorem unpinPages (ok : CacheOk world k) (mapped : k.ctx.kernVirtPage ≠ 0) {page : Page}
    (held : k.ctx.page = some page) : CacheOk world (k.unpinPages world page) := by
  rcases ok.mapping mapped with ⟨cached, isPage, _, isHead⟩
  rcases Option.some.inj (held.symm.trans isPage) with rfl
  have before : k.ctx.cached = some page := by rw [AutoLockCtx.cached, if_neg mapped, held]
  have after : (k.unpinPages world page).ctx.cached = none := if_pos rfl
  refine ⟨ok.mask, fun _ => rfl, fun mapped => absurd rfl mapped, ?_, ?_⟩
  · rw [after, ← count_oneFor_some page, ← before, ← ok.pins]
    simp only [KernelState.unpinPages, isHead]
  · intro other linear
    rw [after, ← count_oneFor_some page, ← before]
    simp only [KernelState.unpinPages, count_apply, ok.maps other linear]

/-- Unpinning the page whose mapping failed takes back its pin; its count of
mappings goes below zero, but it has no place in the linear map. -/
theorem unpinUnmapped (ok : CacheOk world k) (unmapped : k.ctx.kernVirtPage = 0) {page : Page}
    (isHead : world.compoundHead page = page) (failed : world.kmap page = 0) :
    CacheOk world (KernelState.unpinPages world { k with pins := count k.pins page 1 } page) := by
  have before : k.ctx.cached = none := if_pos unmapped
  have after : (KernelState.unpinPages world
      { k with pins := count k.pins page 1 } page).ctx.cached = none := if_pos rfl
  refine ⟨ok.mask, fun _ => rfl, fun mapped => absurd rfl mapped, ?_, ?_⟩
  · rw [after, ← before, ← ok.pins]
    simp only [KernelState.unpinPages, isHead, count_count_neg]
  · intro other linear
    have different : other ≠ page := fun same => linear (same ▸ failed)
    rw [after, ← before, ← ok.maps other linear]
    simp [KernelState.unpinPages, count_apply, different]

/-- Whatever the pin gives, a context that holds nothing comes out in step:
either it holds the new page or it still holds nothing. -/
theorem pinAndMap (ok : CacheOk world k) (unmapped : k.ctx.kernVirtPage = 0)
    (usrVirtAddr : BitVec 64) (result : Except Int Page) :
    CacheOk world (k.pinAndMap world usrVirtAddr result).1 := by
  have nothing : k.ctx.cached = none := by simp [AutoLockCtx.cached, unmapped]
  cases result with
  | error ret => exact ok.storeNull
  | ok page =>
      have head : (if world.pageCompound page then world.compoundHead page else page) =
          world.compoundHead page := by
        split
        · rfl
        · next single => exact (world.head_single page (Bool.eq_false_iff.mpr single)).symm
      simp only [KernelState.pinAndMap, head]
      split
      · next failed =>
          exact (ok.unpinUnmapped unmapped (world.head_head page) failed).storeNull
      · next mapped =>
          have cached (start mask : BitVec 64) : AutoLockCtx.cached
              ⟨start, mask, world.kmap (world.compoundHead page), some (world.compoundHead page)⟩ =
              some (world.compoundHead page) := if_neg mapped
          refine ⟨?_, fun unmapped => absurd unmapped mapped,
            fun _ => ⟨_, rfl, rfl, world.head_head page⟩, ?_, ?_⟩
          · cases world.pageCompound page
            · exact .inr (.inl rfl)
            · exact .inr (.inr rfl)
          · rw [cached, ok.pins, nothing, count_oneFor_none]
          · intro other linear
            rw [cached, ← count_oneFor_none]
            simp only [count_apply, ok.maps other linear, nothing]

/-- The cached mapping is found, replaced or given up; `BUG()` is not reached. -/
theorem cachePhysAddr (ok : CacheOk world k) (result : Except Int Page) :
    exists k' ret, k.cachePhysAddr world result = some (k', ret) ∧ CacheOk world k' := by
  unfold KernelState.cachePhysAddr
  simp only
  split
  · exact ⟨k, 0, rfl, ok⟩
  · split
    · next unmapped => exact ⟨_, _, rfl, ok.pinAndMap unmapped _ result⟩
    · next mapped =>
        rcases ok.mapping mapped with ⟨page, held, _, _⟩
        rw [held]
        exact ⟨_, _, rfl, (ok.unpinPages mapped held).pinAndMap rfl _ result⟩

theorem checkUnpinPages (ok : CacheOk world k) (once : UnpinsOnce k) :
    CacheOk world (k.checkUnpinPages world) := by
  unfold KernelState.checkUnpinPages
  split
  · exact ok
  · next page held =>
      have mapped : k.ctx.kernVirtPage ≠ 0 := by
        intro unmapped
        rw [once unmapped] at held
        cases held
      exact ok.unpinPages mapped held

/-! ## The check -/

/-- The pinned and mapped page is the cached one. -/
theorem insidePinned_iff (ok : CacheOk world k) (mapped : k.ctx.kernVirtPage ≠ 0) {page : Page}
    (held : k.ctx.page = some page) (offset : BitVec 64) :
    InsidePinned world k (k.ctx.kernVirtPage + offset) <->
      offset.toNat + 4 ≤ world.pageSize page := by
  rcases ok.mapping mapped with ⟨cached, isPage, address, _⟩
  rcases Option.some.inj (held.symm.trans isPage) with rfl
  have isCached : k.ctx.cached = some page := by rw [AutoLockCtx.cached, if_neg mapped, held]
  have fits := world.kmap_fits page
  have bounded := offset.isLt
  have linear : world.kmap page ≠ 0 := address ▸ mapped
  rw [address]
  constructor
  · rintro ⟨other, pinned, _, lower, upper⟩
    have same : other = page := by
      rw [ok.pins, isCached, oneFor_some] at pinned
      by_contra different
      simp [different] at pinned
    subst same
    rw [BitVec.toNat_add] at lower upper
    omega
  · intro inside
    have sum : (world.kmap page + offset).toNat = (world.kmap page).toNat + offset.toNat := by
      rw [BitVec.toNat_add, Nat.mod_eq_of_lt (by omega)]
    refine ⟨page, ?_, ?_, by omega, by omega⟩
    · simp [ok.pins, isCached, oneFor_some]
    · simp [ok.maps page linear, isCached, oneFor_some]

/-- While nothing is mapped, an address counts as mapped if it is within the mask. -/
theorem usrPageIsMapped_iff_le (ok : CacheOk world k) (unmapped : k.ctx.kernVirtPage = 0)
    (addr : BitVec 64) :
    k.ctx.usrPageIsMapped addr = true <-> addr ≤ k.ctx.usrVirtPageMask := by
  have low : exists bits, k.ctx.usrVirtPageMask.toNat = 2 ^ bits - 1 := by
    rcases ok.mask with zero | page | huge
    · exact ⟨0, by rw [zero]; rfl⟩
    · exact ⟨12, by rw [page]; rfl⟩
    · exact ⟨21, by rw [huge]; rfl⟩
  rcases low with ⟨bits, low⟩
  rw [AutoLockCtx.usrPageIsMapped, ok.start unmapped, beq_iff_eq]
  exact ⟨le_of_and_not_eq_zero, and_not_eq_zero_of_le low⟩

theorem checkMem_safe_iff (ok : CacheOk world k) (mem : BitVec 64 -> BitVec 32) :
    Safe world k (k.checkMem mem) <-> CheckFits world k := by
  unfold KernelState.checkMem CheckFits
  simp only
  by_cases isNull : k.autoLock.watchMem = 0
  · simp only [isNull, if_true, true_or, ite_self, Safe]
  rw [if_neg isNull]
  by_cases unmapped : k.ctx.kernVirtPage = 0
  · rw [if_pos unmapped]
    have low := ok.usrPageIsMapped_iff_le unmapped k.autoLock.watchMem
    cases isMapped : k.ctx.usrPageIsMapped k.autoLock.watchMem with
    | false =>
        have above := BitVec.not_le.mp (mt low.mpr (Bool.eq_false_iff.mp isMapped))
        simp only [if_true, above, or_true, Safe]
    | true =>
        have within := BitVec.not_lt.mpr (low.mp isMapped)
        rw [if_neg (by decide : ¬true = false), if_pos (.inl unmapped)]
        simp only [isNull, within, or_false, Safe]
  · rcases ok.mapping unmapped with ⟨page, held, _, _⟩
    rw [if_neg unmapped]
    cases isMapped : k.ctx.usrPageIsMapped k.autoLock.watchMem with
    | false => simp only [if_true, true_or, or_true, Safe]
    | true =>
        have present : ¬(k.ctx.kernVirtPage = 0 ∨ k.ctx.page.isNone = true) := by
          simp only [held, Option.isNone_some, Bool.false_eq_true, or_false]
          exact unmapped
        rw [if_neg (by decide : ¬true = false), if_neg present]
        simp only [isNull, held, Safe, false_or, Option.mem_some_iff, forall_eq',
          reduceCtorEq]
        exact ok.insidePinned_iff unmapped held _

end CacheOk

/-! ## A small world -/

/-- A single page, and a compound page of twice its size. -/
def smallWorld : PageWorld Bool where
  pageCompound := id
  compoundHead := id
  pageSize := fun page => if page then 0x2000 else 0x1000
  kmap := fun page => if page then 0x20000 else 0x10000
  head_head := fun _ => rfl
  head_single := fun _ _ => rfl
  size_single := by decide
  kmap_fits := by decide

namespace SmallWorld

abbrev Schedule := List (Party × Op Bool)

def write (watchMem : BitVec 64) : Schedule :=
  [(.user, .write ⟨watchMem, 1, 0⟩)]

def cache (result : Except Int Bool) : Schedule :=
  [(.kernel, .cachePhysAddr), (.kernel, .pinUserPages result)]

def check : Op Bool :=
  .checkMem fun _ => 0

instance (k : KernelState Bool) (addr : BitVec 64) :
    Decidable (InsidePinned smallWorld k addr) := by
  delta InsidePinned
  infer_instance

/-- The schedule and the first half of a check after it. -/
def played (schedule : Schedule) :
    Machine Party (KernelState Bool) Phase × List (Party × Event) :=
  (watchedPage smallWorld).play (schedule ++ [(.kernel, .dontSched)]) (created ⟨0, 0, 0⟩)

/-- An unguarded run after which the next step of the check is unsafe. -/
def LeadsToUnsafe (schedule : Schedule) (event : Event) : Prop :=
  (watchedPageSystem smallWorld).Run TransitionSystem.unguarded
      (played schedule).2 (played schedule).1 ∧
    (exists s', (watchedPageSystem smallWorld).next (played schedule).1 (.kernel, event) s') ∧
    ¬Safe smallWorld (played schedule).1.shared event

end SmallWorld

/-! ## Runs -/

section runs

variable (world : PageWorld Page)

/-- The checks fit, and `dearm` unpins a page that is pinned. -/
def permitted : TransitionSystem.Guard (Machine Party (KernelState Page) Phase) (Party × Event) :=
  fun _ s label _ =>
    (label.1 = .kernel -> s.thread .kernel = .checking -> CheckFits world s.shared) ∧
      (label.2 = .dearmed -> UnpinsOnce s.shared)

instance (trace : List (Party × Event)) (s s' : Machine Party (KernelState Page) Phase)
    (label : Party × Event) : Decidable (permitted world trace s label s') :=
  inferInstanceAs (Decidable (_ ∧ _))

variable {world}

/-- Everything that a step can do, with the conditions under which it does it. -/
inductive StepEffect (world : PageWorld Page) (k : KernelState Page) (phase : Phase) :
    Party -> KernelState Page -> Phase -> Event -> Prop
  | wrote (autoLock : AutoLock) :
      StepEffect world k phase .user { k with autoLock := autoLock } phase .wrote
  | armed (isIdle : phase = .idle) (phase' : Phase) :
      StepEffect world k phase .kernel k phase' .armed
  | notArmed (isIdle : phase = .idle) : StepEffect world k phase .kernel k .idle (.returned 0)
  | cached (isCaching : phase = .caching) {result : Except Int Page} {k' : KernelState Page}
      {ret : Int} (done : k.cachePhysAddr world result = some (k', ret)) :
      StepEffect world k phase .kernel k' .idle (.returned ret)
  | stopped (isCaching : phase = .caching) {result : Except Int Page}
      (bug : k.cachePhysAddr world result = none) : StepEffect world k phase .kernel k .gone .bug
  | checked (isChecking : phase = .checking) (mem : BitVec 64 -> BitVec 32) (phase' : Phase) :
      StepEffect world k phase .kernel k phase' (k.checkMem mem)
  | dearmed (isIdle : phase = .idle) :
      StepEffect world k phase .kernel (k.dearm world) .idle .dearmed
  | released (isIdle : phase = .idle) :
      StepEffect world k phase .kernel (k.checkUnpinPages world) .gone .released

variable {k k' : KernelState Page} {party : Party} {op : Op Page} {phase phase' : Phase}
  {event : Event}

theorem step_effect (stepped : k.step world party op phase = some (k', phase', event)) :
    StepEffect world k phase party k' phase' event := by
  cases party <;> cases op <;> cases phase <;>
    simp only [KernelState.step, reduceCtorEq] at stepped
  case kernel.pinUserPages.caching result =>
    split at stepped
    · next bug =>
        cases stepped
        exact .stopped rfl bug
    · next done =>
        cases stepped
        exact .cached rfl done
  case kernel.cachePhysAddr.idle =>
    split at stepped
    · cases stepped
      exact .armed rfl _
    · cases stepped
      exact .notArmed rfl
  case kernel.dontSched.idle =>
    split at stepped
    · cases stepped
      exact .armed rfl _
    · cases stepped
      exact .notArmed rfl
  all_goals cases stepped
  case kernel.checkMem.checking mem => exact .checked rfl mem _
  case kernel.dearm.idle => exact .dearmed rfl
  case kernel.release.idle => exact .released rfl
  all_goals exact .wrote _

/-- No step takes the context out of step with the counts, as long as `dearm`
does not unpin a second time.  What `release` unpins is not looked at again. -/
theorem StepEffect.cacheOk (effect : StepEffect world k phase party k' phase' event)
    (ok : CacheOk world k) (once : event = .dearmed -> UnpinsOnce k) :
    CacheOk world k' ∨ (party = .kernel ∧ phase' = .gone) := by
  cases effect with
  | wrote autoLock => exact .inl (ok.write autoLock)
  | armed | notArmed | checked | stopped => exact .inl ok
  | @cached _ result k' ret done =>
      rcases ok.cachePhysAddr result with ⟨k'', ret', cached, ok'⟩
      rcases Option.some.inj (done.symm.trans cached) with ⟨rfl, rfl⟩
      exact .inl ok'
  | dearmed => exact .inl (ok.checkUnpinPages (once rfl)).storeNull
  | released => exact .inr ⟨rfl, rfl⟩

/-- Nothing happens on a context that is gone but the user's writes. -/
theorem StepEffect.wrote_of_gone (effect : StepEffect world k .gone party k' phase' event) :
    party = .user ∧ event = .wrote := by
  cases effect with
  | wrote => exact ⟨rfl, rfl⟩
  | armed isIdle | notArmed isIdle | dearmed isIdle | released isIdle => cases isIdle
  | cached isCaching | stopped isCaching => cases isCaching
  | checked isChecking => cases isChecking

/-- In a context that is in step, only a check can be unsafe. -/
theorem StepEffect.safe_iff (effect : StepEffect world k phase party k' phase' event)
    (ok : CacheOk world k) :
    Safe world k event <-> (party = .kernel -> phase = .checking -> CheckFits world k) := by
  cases effect with
  | wrote autoLock => simp [Safe]
  | armed isIdle | notArmed isIdle | dearmed isIdle | released isIdle => simp [Safe, isIdle]
  | cached isCaching => simp [Safe, isCaching]
  | @stopped isCaching result bug =>
      rcases ok.cachePhysAddr result with ⟨k'', ret, cached, _⟩
      rw [cached] at bug
      cases bug
  | checked isChecking mem => simpa [isChecking] using ok.checkMem_safe_iff mem

theorem cacheOk_of_run {trace : List (Party × Event)} {s : Machine Party (KernelState Page) Phase}
    (run : (watchedPageSystem world).Run (permitted world) trace s) :
    CacheOk world s.shared ∨ s.thread .kernel = .gone := by
  refine run.invariant (fun _ s => CacheOk world s.shared ∨ s.thread .kernel = .gone) ?_ ?_
  · rintro _ ⟨autoLock, rfl⟩
    exact .inl (CacheOk.created autoLock)
  · intro _ s label s' before moved allowed
    rcases Program.system_next moved with ⟨op, k', phase', stepped, rfl⟩
    have effect := step_effect stepped
    rcases label with ⟨party, event⟩
    rcases before with ok | gone
    · rcases effect.cacheOk ok allowed.2 with ok' | ⟨rfl, rfl⟩
      · exact .inl ok'
      · right
        simp only [Function.update_self]
    · cases party with
      | user =>
          right
          simpa only [Function.update_of_ne (by decide : Party.kernel ≠ .user)] using gone
      | kernel =>
          rw [gone] at effect
          cases effect.wrote_of_gone.1

/-- After any run whose steps are permitted, the next step of either party
neither reaches `BUG()` nor reads outside a page that is pinned and mapped at
that moment, exactly if it is not a check or the check fits. -/
theorem step_safe_iff_checkFits {trace : List (Party × Event)}
    {s s' : Machine Party (KernelState Page) Phase} {label : Party × Event}
    (run : (watchedPageSystem world).Run (permitted world) trace s)
    (moved : (watchedPageSystem world).next s label s') :
    Safe world s.shared label.2 <->
      (label.1 = .kernel -> s.thread .kernel = .checking -> CheckFits world s.shared) := by
  rcases Program.system_next moved with ⟨op, k', phase', stepped, _⟩
  have effect := step_effect stepped
  rcases label with ⟨party, event⟩
  cases party with
  | user =>
      cases effect
      simp [Safe]
  | kernel =>
      rcases cacheOk_of_run run with ok | gone
      · exact effect.safe_iff ok
      · rw [gone] at effect
        cases effect.wrote_of_gone.1

end runs

open SmallWorld in
/-- The user watches a word in the middle of the single page. -/
theorem step_safe_iff_checkFits_singlePage :
    exists s', (watchedPageSystem smallWorld).next
        (played (write 0x5008 ++ cache (.ok false))).1 (.kernel, .read 0x10008 true) s' ∧
      Safe smallWorld (played (write 0x5008 ++ cache (.ok false))).1.shared
        (.read 0x10008 true) := by
  have run : (watchedPageSystem smallWorld).Run (permitted smallWorld)
      (played (write 0x5008 ++ cache (.ok false))).2
      (played (write 0x5008 ++ cache (.ok false))).1 :=
    Program.run_play_decided ⟨_, rfl⟩ _ (by decide)
  have moved : (watchedPageSystem smallWorld).next
      (played (write 0x5008 ++ cache (.ok false))).1 (.kernel, .read 0x10008 true) _ :=
    ⟨check, rfl⟩
  exact ⟨_, moved, (step_safe_iff_checkFits run moved).mpr (by decide)⟩

open SmallWorld in
/-- A small address after a failed pin; an address two bytes before the end
of a page; one behind a compound page of two pages; a page that is cached
again after it was unpinned twice. -/
theorem watchedPage_unsafe :
    LeadsToUnsafe
        (write 0x5000 ++ cache (.ok false) ++ write 0x9000 ++ cache (.error (-14)) ++ write 8)
        .bug ∧
      LeadsToUnsafe (write 0x5ffe ++ cache (.ok false)) (.read 0x10ffe true) ∧
      LeadsToUnsafe (write 0x403000 ++ cache (.ok true)) (.read 0x23000 true) ∧
      LeadsToUnsafe
        (write 0x5000 ++ cache (.ok false) ++ [(.kernel, .dearm), (.kernel, .dearm)] ++
          write 0x5000 ++ cache (.ok false))
        (.read 0x10000 true) := by
  refine ⟨⟨?_, ⟨_, check, rfl⟩, id⟩, ⟨?_, ⟨_, check, rfl⟩, ?_⟩, ⟨?_, ⟨_, check, rfl⟩, ?_⟩,
    ⟨?_, ⟨_, check, rfl⟩, ?_⟩⟩
  · exact Program.run_play ⟨_, rfl⟩ _ (by decide)
  · exact Program.run_play ⟨_, rfl⟩ _ (by decide)
  · show ¬InsidePinned smallWorld _ _
    decide
  · exact Program.run_play ⟨_, rfl⟩ _ (by decide)
  · show ¬InsidePinned smallWorld _ _
    decide
  · exact Program.run_play ⟨_, rfl⟩ _ (by decide)
  · show ¬InsidePinned smallWorld _ _
    decide

end Kernel
end Autolock
