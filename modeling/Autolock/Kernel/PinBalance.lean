import Autolock.Kernel.WatchedPageSafety

namespace Autolock
namespace Kernel

open Concurrency

/-!
# Every pin is undone once

The context encodes whether a page is pinned in two fields: `page` and
`kern_virt_page`.  Unpinning clears the second only, and whoever unpins next
goes by the first, except for the re-pin, which goes by the second.  The
counts therefore balance as long as nobody goes by a page that is left over,
and no kernel mapping fails: the path for that case also undoes the mapping.

Here the kernel mapping of any page may fail at any time.
-/

namespace PageWorld

variable {Page : Type}

/-- The same pages at a moment at which no kernel mapping succeeds. -/
def withoutKmap (world : PageWorld Page) : PageWorld Page where
  pageCompound := world.pageCompound
  compoundHead := world.compoundHead
  pageSize := world.pageSize
  kmap := fun _ => 0
  head_head := world.head_head
  head_single := world.head_single
  size_single := world.size_single
  kmap_fits := fun p => by
    have fits := world.kmap_fits p
    show 0 + world.pageSize p ≤ 2 ^ 64
    omega

/-- The pages at a moment at which kernel mappings fail or not. -/
def during (world : PageWorld Page) (kmapFails : Bool) : PageWorld Page :=
  if kmapFails then world.withoutKmap else world

end PageWorld

variable {Page : Type} [DecidableEq Page]

/-- The user and the kernel on one context; an action says whether `kmap` fails. -/
def unreliablePage (world : PageWorld Page) :
    Program Party (KernelState Page) Phase (Op Page × Bool) Event where
  step := fun party action => KernelState.step (world.during action.2) party action.1

abbrev PinRecord (Page : Type) := StepRecord Phase (Op Page × Bool) Event

def unreliablePageSystem (world : PageWorld Page) :
    TransitionSystem (Machine Party (KernelState Page) Phase) (Party × PinRecord Page) :=
  (unreliablePage world).recorded.system fun s => exists autoLock, s = created autoLock

/-- `__auto_lock_release` has been called. -/
def hasReleased (trace : List (Party × PinRecord Page)) : Prop :=
  exists label, label ∈ trace ∧ label.2.event = .released

omit [DecidableEq Page] in
/-- No page has been unpinned or unmapped more often than pinned and mapped. -/
def Balanced (k : KernelState Page) : Prop :=
  forall page, 0 ≤ k.pins page ∧ 0 ≤ k.maps page

omit [DecidableEq Page] in
/-- If a page is pinned, the kernel can map it. -/
def CanMap (world : PageWorld Page) : Except Int Page -> Prop
  | .error _ => True
  | .ok page => world.kmap (world.compoundHead page) ≠ 0

omit [DecidableEq Page] in
/-- The condition on a step: nothing is unpinned by way of a page that is left
in the context, and a page that has to be mapped can be. -/
def UndoesOnce (world : PageWorld Page) (k : KernelState Page) : Op Page -> Prop
  | .dearm | .release => UnpinsOnce k
  | .pinUserPages result =>
      k.ctx.usrPageIsMapped k.autoLock.watchMem = true ∨ CanMap world result
  | _ => True

/-- Runs in which every step undoes what it undoes once. -/
def undoesOnce (world : PageWorld Page) :
    TransitionSystem.Guard (Machine Party (KernelState Page) Phase) (Party × PinRecord Page) :=
  fun _ s label _ => UndoesOnce (world.during label.2.action.2) s.shared label.2.action.1

/-! ## The ledgers -/

/-- The cached page, and no other, is pinned and mapped. -/
structure LedgerOk (world : PageWorld Page) (k : KernelState Page) : Prop where
  mapping : k.ctx.kernVirtPage ≠ 0 ->
    exists page, k.ctx.page = some page ∧ world.compoundHead page = page
  pins : k.pins = oneFor k.ctx.cached
  maps : k.maps = oneFor k.ctx.cached

section ledgers

variable {world : PageWorld Page} {k : KernelState Page}

omit [DecidableEq Page] in
theorem AutoLockCtx.cached_of_unmapped {ctx : AutoLockCtx Page} (unmapped : ctx.kernVirtPage = 0) :
    ctx.cached = none := by
  rw [AutoLockCtx.cached, if_pos unmapped]

theorem oneFor_nonneg (held : Option Page) (page : Page) : 0 ≤ oneFor held page := by
  unfold oneFor
  split <;> decide

theorem LedgerOk.balanced (ok : LedgerOk world k) : Balanced k := by
  intro page
  rw [ok.pins, ok.maps]
  exact ⟨oneFor_nonneg _ page, oneFor_nonneg _ page⟩

theorem LedgerOk.empty (ok : LedgerOk world k) (nothing : k.ctx.cached = none) (page : Page) :
    k.pins page = 0 ∧ k.maps page = 0 := by
  rw [ok.pins, ok.maps, nothing, oneFor_none]
  exact ⟨rfl, rfl⟩

/-- The ledgers and the context decide; the user's page does not matter. -/
theorem LedgerOk.write (ok : LedgerOk world k) (autoLock : AutoLock) :
    LedgerOk world { k with autoLock := autoLock } :=
  ⟨ok.mapping, ok.pins, ok.maps⟩

theorem LedgerOk.unpinPages (ok : LedgerOk world k) (mapped : k.ctx.kernVirtPage ≠ 0) {page : Page}
    (held : k.ctx.page = some page) : LedgerOk world (k.unpinPages world page) := by
  rcases ok.mapping mapped with ⟨cached, isPage, isHead⟩
  rcases Option.some.inj (held.symm.trans isPage) with rfl
  have isCached : k.ctx.cached = some page := by rw [AutoLockCtx.cached, if_neg mapped, held]
  refine ⟨fun again => absurd rfl again, ?_, ?_⟩
  · show count k.pins (world.compoundHead page) (-1) = _
    rw [isHead, ok.pins, isCached, count_oneFor_some]
    rfl
  · show count k.maps page (-1) = _
    rw [ok.maps, isCached, count_oneFor_some]
    rfl

/-- Unpinning a page that is not pinned any more. -/
theorem LedgerOk.not_balanced_unpinPages (ok : LedgerOk world k)
    (unmapped : k.ctx.kernVirtPage = 0) (page : Page) : ¬Balanced (k.unpinPages world page) := by
  intro balanced
  have pins := (balanced (world.compoundHead page)).1
  simp only [KernelState.unpinPages, count_apply, ok.pins, if_true,
    AutoLockCtx.cached_of_unmapped unmapped, oneFor_none] at pins
  exact absurd pins (by decide)

/-- A page is pinned while none is: the counts stay in step if it can be
mapped, and do not balance if it cannot. -/
theorem LedgerOk.pinAndMap (ok : LedgerOk world k) (unmapped : k.ctx.kernVirtPage = 0)
    (addr : BitVec 64) (result : Except Int Page) :
    (Balanced (k.pinAndMap world addr result).1 -> CanMap world result) ∧
      (CanMap world result -> LedgerOk world (k.pinAndMap world addr result).1) := by
  have nothing := AutoLockCtx.cached_of_unmapped unmapped
  cases result with
  | error ret => exact ⟨fun _ => trivial, fun _ => ok.write _⟩
  | ok page =>
      have isHead : (if world.pageCompound page then world.compoundHead page else page) =
          world.compoundHead page := by
        split
        · rfl
        · next single => exact (world.head_single page (Bool.eq_false_iff.mpr single)).symm
      simp only [KernelState.pinAndMap, isHead, CanMap]
      constructor
      · intro balanced noMapping
        rw [if_pos noMapping] at balanced
        have maps := (balanced (world.compoundHead page)).2
        simp only [KernelState.storeNull, KernelState.unpinPages, count_apply, ok.maps, nothing,
          oneFor_none, if_true] at maps
        exact absurd maps (by decide)
      · intro canMap
        rw [if_neg canMap]
        refine ⟨fun _ => ⟨_, rfl, world.head_head page⟩, ?_, ?_⟩
        · rw [AutoLockCtx.cached, if_neg canMap, ← count_oneFor_none, ← nothing, ← ok.pins]
        · rw [AutoLockCtx.cached, if_neg canMap, ← count_oneFor_none, ← nothing, ← ok.maps]

/-- The part of `__auto_lock_cache_phys_addr` behind its `is_armed` never stops. -/
theorem LedgerOk.cachePhysAddr (ok : LedgerOk world k) (result : Except Int Page) :
    exists k' ret, k.cachePhysAddr world result = some (k', ret) ∧
      (Balanced k' -> UndoesOnce world k (.pinUserPages result)) ∧
        (UndoesOnce world k (.pinUserPages result) -> LedgerOk world k') := by
  unfold KernelState.cachePhysAddr UndoesOnce
  simp only
  cases isMapped : k.ctx.usrPageIsMapped k.autoLock.watchMem with
  | true => exact ⟨k, 0, rfl, fun _ => Or.inl rfl, fun _ => ok⟩
  | false =>
      simp only [Bool.false_eq_true, if_false, false_or]
      split
      · next unmapped => exact ⟨_, _, rfl, ok.pinAndMap unmapped _ result⟩
      · next mapped =>
          rcases ok.mapping mapped with ⟨page, held, _⟩
          rw [held]
          exact ⟨_, _, rfl, (ok.unpinPages mapped held).pinAndMap rfl _ result⟩

/-- The unpinning of `dearm` and `release`. -/
theorem LedgerOk.checkUnpinPages (ok : LedgerOk world k) :
    (Balanced (k.checkUnpinPages world) -> UnpinsOnce k) ∧
      (UnpinsOnce k -> LedgerOk world (k.checkUnpinPages world) ∧
        (k.checkUnpinPages world).ctx.cached = none) := by
  unfold KernelState.checkUnpinPages
  split
  · next nothing =>
      refine ⟨fun _ _ => nothing, fun _ => ⟨ok, ?_⟩⟩
      rw [AutoLockCtx.cached, nothing, ite_self]
  · next page held =>
      constructor
      · intro balanced unmapped
        exact absurd balanced (ok.not_balanced_unpinPages unmapped page)
      · intro once
        have mapped : k.ctx.kernVirtPage ≠ 0 := by
          intro unmapped
          rw [once unmapped] at held
          cases held
        exact ⟨ok.unpinPages mapped held, AutoLockCtx.cached_of_unmapped rfl⟩

end ledgers

/-! ## One step -/

section step

variable {world : PageWorld Page} {k k' : KernelState Page} {party : Party} {op : Op Page}
  {phase phase' : Phase} {event : Event}

/-- A step keeps the counts in step with the context if it undoes what it
undoes once, and they do not balance after any other step. -/
theorem step_ledger (stepped : k.step world party op phase = some (k', phase', event))
    (ok : LedgerOk world k) :
    (Balanced k' -> UndoesOnce world k op) ∧ (UndoesOnce world k op -> LedgerOk world k') := by
  cases party <;> cases op <;> cases phase <;>
    simp only [KernelState.step, reduceCtorEq] at stepped
  case kernel.pinUserPages.caching result =>
    rcases ok.cachePhysAddr result with ⟨k₁, ret, cached, kept⟩
    rw [cached] at stepped
    cases stepped
    exact kept
  case kernel.cachePhysAddr.idle =>
    split at stepped <;> cases stepped <;> exact ⟨fun _ => trivial, fun _ => ok⟩
  case kernel.dontSched.idle =>
    split at stepped <;> cases stepped <;> exact ⟨fun _ => trivial, fun _ => ok⟩
  case kernel.checkMem.checking mem =>
    cases stepped
    exact ⟨fun _ => trivial, fun _ => ok⟩
  case kernel.dearm.idle =>
    cases stepped
    exact ⟨ok.checkUnpinPages.1, fun once => (ok.checkUnpinPages.2 once).1.write _⟩
  case kernel.release.idle =>
    cases stepped
    exact ⟨ok.checkUnpinPages.1, fun once => (ok.checkUnpinPages.2 once).1⟩
  all_goals cases stepped
  all_goals exact ⟨fun _ => trivial, fun _ => ok.write _⟩

omit [DecidableEq Page] in
theorem checkMem_ne_released (k : KernelState Page) (mem : BitVec 64 -> BitVec 32) :
    k.checkMem mem ≠ .released := by
  unfold KernelState.checkMem
  simp only
  split
  · exact nofun
  · split
    · exact nofun
    · split <;> exact nofun

/-- After the release nothing is cached, and the kernel is done with the context. -/
theorem step_released (stepped : k.step world party op phase = some (k', phase', .released))
    (ok : LedgerOk world k) (once : UndoesOnce world k op) :
    party = .kernel ∧ phase' = .gone ∧ k'.ctx.cached = none := by
  cases party <;> cases op <;> cases phase <;>
    simp only [KernelState.step, reduceCtorEq] at stepped
  case kernel.release.idle =>
    cases stepped
    exact ⟨rfl, rfl, (ok.checkUnpinPages.2 once).2⟩
  case kernel.checkMem.checking mem =>
    simp only [Option.some.injEq, Prod.mk.injEq] at stepped
    exact absurd stepped.2.2 (checkMem_ne_released k mem)
  all_goals try (split at stepped)
  all_goals cases stepped

theorem step_user (stepped : k.step world .user op phase = some (k', phase', event)) :
    k'.ctx = k.ctx := by
  cases op <;> simp only [KernelState.step, reduceCtorEq] at stepped
  cases stepped
  rfl

theorem not_step_gone : k.step world .kernel op .gone ≠ some (k', phase', event) := by
  cases op <;> exact nofun

end step

/-! ## Every run -/

section runs

variable {world : PageWorld Page}

theorem ledgerOk_during {kmapFails : Bool} {k : KernelState Page} :
    LedgerOk (world.during kmapFails) k <-> LedgerOk world k := by
  have sameHead : (world.during kmapFails).compoundHead = world.compoundHead := by
    cases kmapFails <;> rfl
  constructor
  · exact fun ok => ⟨sameHead ▸ ok.mapping, ok.pins, ok.maps⟩
  · exact fun ok => ⟨sameHead.symm ▸ ok.mapping, ok.pins, ok.maps⟩

theorem ledgerOk_created (autoLock : AutoLock) :
    LedgerOk world (created autoLock : Machine Party (KernelState Page) Phase).shared where
  mapping := fun mapped => absurd rfl mapped
  pins := funext fun page => (oneFor_none page).symm
  maps := funext fun page => (oneFor_none page).symm

theorem run_ledger {trace : List (Party × PinRecord Page)}
    {s : Machine Party (KernelState Page) Phase}
    (run : (unreliablePageSystem world).Run (undoesOnce world) trace s) :
    LedgerOk world s.shared ∧
      (hasReleased trace -> s.thread .kernel = .gone ∧ s.shared.ctx.cached = none) := by
  refine run.invariant (fun trace s => LedgerOk world s.shared ∧
    (hasReleased trace -> s.thread .kernel = .gone ∧ s.shared.ctx.cached = none)) ?_ ?_
  · rintro _ ⟨autoLock, rfl⟩
    refine ⟨ledgerOk_created autoLock, ?_⟩
    rintro ⟨label, inTrace, _⟩
    cases inTrace
  · rintro trace s ⟨party, record⟩ s' ⟨ok, released⟩ moved allowed
    rcases Program.recorded_next moved with ⟨k', stepped, _, rfl⟩
    have okNow : LedgerOk (world.during record.action.2) s.shared := ledgerOk_during.mpr ok
    refine ⟨ledgerOk_during.mp ((step_ledger stepped okNow).2 allowed), ?_⟩
    rintro ⟨label, inTrace, isRelease⟩
    rcases List.mem_append.mp inTrace with earlier | last
    · rcases released ⟨label, earlier, isRelease⟩ with ⟨gone, nothing⟩
      cases party with
      | user =>
          refine ⟨?_, (congrArg AutoLockCtx.cached (step_user stepped)).trans nothing⟩
          simpa only [Function.update_of_ne (by decide : Party.kernel ≠ .user)] using gone
      | kernel =>
          rw [gone] at stepped
          exact absurd stepped not_step_gone
    · rcases List.mem_singleton.mp last with rfl
      rw [isRelease] at stepped
      rcases step_released stepped okNow allowed with ⟨isKernel, gone, nothing⟩
      cases isKernel
      refine ⟨?_, nothing⟩
      simpa only [Function.update_self] using gone

/-- In every run whose steps undo what they undo once, no page has ever been
unpinned or unmapped more often than it was pinned or mapped, and after the
release every pin and every mapping has been undone; and every other step
undoes a pin or a mapping that is not there. -/
theorem balanced_iff_undoesOnce {trace : List (Party × PinRecord Page)}
    {s : Machine Party (KernelState Page) Phase}
    (run : (unreliablePageSystem world).Run (undoesOnce world) trace s) :
    Balanced s.shared ∧
      (hasReleased trace -> forall page, s.shared.pins page = 0 ∧ s.shared.maps page = 0) ∧
      forall label s', (unreliablePageSystem world).next s label s' ->
        (Balanced s'.shared <->
          UndoesOnce (world.during label.2.action.2) s.shared label.2.action.1) := by
  rcases run_ledger run with ⟨ok, released⟩
  refine ⟨ok.balanced, fun gone => ok.empty (released gone).2, fun label s' moved => ?_⟩
  rcases Program.recorded_next moved with ⟨k', stepped, _, rfl⟩
  rcases step_ledger stepped (ledgerOk_during.mpr ok) with ⟨needed, enough⟩
  exact ⟨needed, fun once => (enough once).balanced⟩

end runs

/-! ## Runs of the small world -/

namespace SmallWorld

instance (k : KernelState Bool) : Decidable (Balanced k) :=
  inferInstanceAs (Decidable (forall _, _ ∧ _))

instance (result : Except Int Bool) (world : PageWorld Bool) : Decidable (CanMap world result) := by
  unfold CanMap
  split <;> infer_instance

instance (world : PageWorld Bool) (k : KernelState Bool) (op : Op Bool) :
    Decidable (UndoesOnce world k op) := by
  unfold UndoesOnce
  split <;> infer_instance

/-- A schedule in which no kernel mapping fails. -/
def reliably (schedule : Schedule) : List (Party × (Op Bool × Bool)) :=
  schedule.map fun step => (step.1, step.2, false)

def recordedPlay (schedule : List (Party × (Op Bool × Bool))) :
    Machine Party (KernelState Bool) Phase × List (Party × PinRecord Bool) :=
  (unreliablePage smallWorld).recorded.play schedule (created ⟨0, 0, 0⟩)

/-- The user moves to a compound page and back, with a `dearm` in between. -/
def lifetime : Schedule :=
  write 0x5008 ++ cache (.ok false) ++ write 0x403000 ++ cache (.ok true) ++ write 0x5008 ++
    cache (.ok false) ++ [(.kernel, .release)]

end SmallWorld

open SmallWorld in
theorem balanced_iff_undoesOnce_lifetime :
    hasReleased (recordedPlay (reliably lifetime)).2 ∧
      forall page, (recordedPlay (reliably lifetime)).1.shared.pins page = 0 ∧
        (recordedPlay (reliably lifetime)).1.shared.maps page = 0 := by
  have run : (unreliablePageSystem smallWorld).Run (undoesOnce smallWorld)
      (recordedPlay (reliably lifetime)).2 (recordedPlay (reliably lifetime)).1 :=
    Program.run_play_decided ⟨_, rfl⟩ _ (by decide)
  have released : hasReleased (recordedPlay (reliably lifetime)).2 :=
    ⟨_, List.getLast_mem (by decide), by decide⟩
  exact ⟨released, (balanced_iff_undoesOnce run).2.1 released⟩

open SmallWorld in
/-- A page is unpinned twice when a re-pin has failed before the release, and
when `dearm` is called twice; and a kernel mapping that has failed is undone. -/
theorem not_balanced_smallWorld :
    let unbalanced := fun schedule =>
      (unreliablePageSystem smallWorld).Run TransitionSystem.unguarded
        (recordedPlay schedule).2 (recordedPlay schedule).1 ∧
          ¬Balanced (recordedPlay schedule).1.shared
    unbalanced (reliably (write 0x5008 ++ cache (.ok false) ++ write 0x9000 ++
        cache (.error (-14)) ++ [(.kernel, .release)])) ∧
      unbalanced (reliably (write 0x5008 ++ cache (.ok false) ++
        [(.kernel, .dearm), (.kernel, .dearm)])) ∧
      unbalanced (reliably (write 0x5008) ++
        (cache (.ok false)).map fun step => (step.1, step.2, true)) := by
  refine ⟨⟨?_, by decide⟩, ⟨?_, by decide⟩, ⟨?_, by decide⟩⟩
  · exact Program.run_play ⟨_, rfl⟩ _ (by decide)
  · exact Program.run_play ⟨_, rfl⟩ _ (by decide)
  · exact Program.run_play ⟨_, rfl⟩ _ (by decide)

end Kernel
end Autolock
