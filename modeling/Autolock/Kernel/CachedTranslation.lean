import Autolock.Kernel.AddressSpace

namespace Autolock
namespace Kernel

open Concurrency

/-!
# When a check reads the word that the user means

A mapping is made for the address that is watched at the pin, and looked up by
the high bits of the address only.  It gives the right word as long as the page
table still says what it said at the pin, and for a compound page only if the
page lies in the address space as it lies in its two megabytes of memory.
-/

variable {Page : Type} [DecidableEq Page] {world : LinearMap Page}

/-! ## The mapping in the context -/

omit [DecidableEq Page] in
/-- The mapping in use is that of the page in the context, with one of two masks. -/
def MappingOk (world : PageWorld Page) (ctx : AutoLockCtx Page) : Prop :=
  ctx.kernVirtPage ≠ 0 ->
    (ctx.usrVirtPageMask = 0xfff ∨ ctx.usrVirtPageMask = 0x1fffff) ∧
      exists page, ctx.page = some page ∧ ctx.kernVirtPage = world.kmap page

section mapping

variable {world : PageWorld Page} {k : KernelState Page}

theorem mappingOk_unpinPages (world : PageWorld Page) (k : KernelState Page) (page : Page) :
    MappingOk world (k.unpinPages world page).ctx :=
  fun mapped => absurd rfl mapped

theorem MappingOk.checkUnpinPages (ok : MappingOk world k.ctx) :
    MappingOk world (k.checkUnpinPages world).ctx := by
  unfold KernelState.checkUnpinPages
  split
  · exact ok
  · exact mappingOk_unpinPages world k _

theorem MappingOk.pinAndMap (ok : MappingOk world k.ctx) (usrVirtAddr : BitVec 64)
    (result : Except Int Page) : MappingOk world (k.pinAndMap world usrVirtAddr result).1.ctx := by
  cases result with
  | error ret => exact ok
  | ok page =>
      cases huge : world.pageCompound page <;>
        simp only [KernelState.pinAndMap, huge, Bool.false_eq_true, if_true, if_false] <;> split
      · exact mappingOk_unpinPages world { k with pins := _ } page
      · exact fun _ => ⟨Or.inl rfl, _, rfl, rfl⟩
      · exact mappingOk_unpinPages world { k with pins := _ } (world.compoundHead page)
      · exact fun _ => ⟨Or.inr rfl, _, rfl, rfl⟩

theorem MappingOk.cachePhysAddr (ok : MappingOk world k.ctx) {result : Except Int Page}
    {k' : KernelState Page} {ret : Int} (done : k.cachePhysAddr world result = some (k', ret)) :
    MappingOk world k'.ctx := by
  simp only [KernelState.cachePhysAddr] at done
  split at done
  · cases done
    exact ok
  · split at done
    · have pinned := ok.pinAndMap k.autoLock.watchMem result
      rwa [Option.some.inj done] at pinned
    · split at done
      · cases done
      · next page _ =>
          have pinned := (mappingOk_unpinPages world k page).pinAndMap k.autoLock.watchMem result
          rwa [Option.some.inj done] at pinned

theorem StepEffect.mappingOk {party : Party} {phase phase' : Phase} {k' : KernelState Page}
    {event : Event} (effect : StepEffect world k phase party k' phase' event)
    (ok : MappingOk world k.ctx) : MappingOk world k'.ctx := by
  cases effect with
  | wrote | armed | notArmed | stopped | checked => exact ok
  | cached _ done => exact ok.cachePhysAddr done
  | dearmed | released => exact ok.checkUnpinPages

end mapping

/-- A step remaps a page of the user, or it is a step on the context. -/
theorem MappedState.step_cases {m m' : MappedState Page} {party : Party} {op : SpaceOp Page}
    {phase phase' : Phase} {event : SpaceEvent}
    (stepped : m.step world party op phase = some (m', phase', event)) :
    (party = .user ∧ m'.kernel = m.kernel ∧ event = .remapped) ∨
      exists event', event = .context event' ∧
        StepEffect world.toPageWorld m.kernel phase party m'.kernel phase' event' := by
  cases op with
  | remap page entry =>
      simp only [MappedState.step] at stepped
      split at stepped <;> cases stepped
      next isUser => exact Or.inl ⟨isUser, rfl, rfl⟩
  | context op =>
      simp only [MappedState.step] at stepped
      split at stepped
      · rcases Option.map_eq_some_iff.mp stepped with ⟨⟨k', phase', event'⟩, enabled, rebuilt⟩
        cases rebuilt
        exact Or.inr ⟨event', rfl, step_effect enabled⟩
      · cases stepped

theorem mappingOk_of_run {trace : List (Party × SpaceEvent)}
    {s : Machine Party (MappedState Page) Phase}
    (run : (mappedPageSystem world).Run TransitionSystem.unguarded trace s) :
    MappingOk world.toPageWorld s.shared.kernel.ctx := by
  refine run.invariant (fun _ s => MappingOk world.toPageWorld s.shared.kernel.ctx) ?_ ?_
  · rintro _ ⟨autoLock, pageTable, rfl⟩
    exact fun mapped => absurd rfl mapped
  · intro _ s label s' ok moved _
    rcases Program.system_next moved with ⟨op, m', phase', stepped, rfl⟩
    rcases MappedState.step_cases stepped with ⟨_, same, _⟩ | ⟨event', _, effect⟩
    · rw [same]
      exact ok
    · exact effect.mappingOk ok

/-! ## What a check reads -/

section check

variable {m : MappedState Page}

omit [DecidableEq Page] in
theorem exists_bits {mask : BitVec 64} (low : mask = 0xfff ∨ mask = 0x1fffff) :
    exists bits, 12 ≤ bits ∧ bits ≤ 21 ∧ mask.toNat = 2 ^ bits - 1 := by
  rcases low with rfl | rfl
  · exact ⟨12, by decide, by decide, rfl⟩
  · exact ⟨21, by decide, by decide, rfl⟩

omit [DecidableEq Page] in
theorem and_mask_lt (addr : BitVec 64) {mask : BitVec 64} (low : mask = 0xfff ∨ mask = 0x1fffff) :
    (addr &&& mask).toNat < 2 ^ 32 := by
  rcases exists_bits low with ⟨bits, _, most, value⟩
  rw [BitVec.toNat_and, value, Nat.and_two_pow_sub_one_eq_mod]
  calc addr.toNat % 2 ^ bits
      < 2 ^ bits := Nat.mod_lt _ (Nat.two_pow_pos bits)
    _ ≤ 2 ^ 32 := Nat.pow_le_pow_right (by decide) (by omega)

omit [DecidableEq Page] in
/-- Both masks keep the offset within the page. -/
theorem and_mask_mod (addr : BitVec 64) {mask : BitVec 64}
    (low : mask = 0xfff ∨ mask = 0x1fffff) :
    (addr &&& mask).toNat % 4096 = addr.toNat % 4096 := by
  rcases exists_bits low with ⟨bits, least, _, value⟩
  rw [BitVec.toNat_and, value, Nat.and_two_pow_sub_one_eq_mod]
  exact Nat.mod_mod_of_dvd _ (Nat.pow_dvd_pow 2 least)

omit [DecidableEq Page] in
/-- The word is the watched one if both of its ends are on the right frames. -/
theorem readsWatched_iff {page : Page} (mapped : m.kernel.ctx.kernVirtPage = world.kmap page)
    (low : m.kernel.ctx.usrVirtPageMask = 0xfff ∨ m.kernel.ctx.usrVirtPageMask = 0x1fffff) :
    m.ReadsWatched world (m.kernel.ctx.kernVirtPage +
        (m.kernel.autoLock.watchMem &&& m.kernel.ctx.usrVirtPageMask)) <->
      m.StillMapped world page := by
  have near := and_mask_lt m.kernel.autoLock.watchMem low
  have same := and_mask_mod m.kernel.autoLock.watchMem low
  have address : m.kernel.ctx.kernVirtPage +
      (m.kernel.autoLock.watchMem &&& m.kernel.ctx.usrVirtPageMask) = world.kmap page +
        BitVec.ofNat 64 (m.kernel.autoLock.watchMem &&& m.kernel.ctx.usrVirtPageMask).toNat := by
    rw [mapped, BitVec.ofNat_toNat, BitVec.setWidth_eq]
  have byte := fun i (small : i < 4) => byte_iff (m := m) near small address same
  unfold MappedState.ReadsWatched MappedState.StillMapped MappedState.cachedFrame
  generalize m.kernel.autoLock.watchMem = addr at *
  generalize (addr &&& m.kernel.ctx.usrVirtPageMask).toNat = distance at *
  have inPage : forall i, addr.toNat % 4096 + i < 4096 ->
      vpn (addr + BitVec.ofNat 64 i) = vpn addr ∧ (distance + i) / 4096 = distance / 4096 := by
    intro i inside
    unfold vpn
    rw [BitVec.toNat_add, BitVec.toNat_ofNat]
    omega
  have beyond : forall i, i < 4 -> ¬addr.toNat % 4096 + i < 4096 ->
      vpn (addr + BitVec.ofNat 64 i) = vpn (addr + 3) ∧
        (distance + i) / 4096 = distance / 4096 + 1 := by
    intro i small outside
    unfold vpn
    rw [BitVec.toNat_add, BitVec.toNat_add, BitVec.toNat_ofNat]
    have three : (3 : BitVec 64).toNat = 3 := rfl
    omega
  constructor
  · intro reads
    refine ⟨?_, fun crosses => ?_⟩
    · have first := (byte 0 (by decide)).mp (reads 0 (by decide))
      rwa [(inPage 0 (by omega)).1, (inPage 0 (by omega)).2] at first
    · have last := (byte 3 (by decide)).mp (reads 3 (by decide))
      rwa [(beyond 3 (by decide) (by omega)).1, (beyond 3 (by decide) (by omega)).2] at last
  · rintro ⟨first, last⟩ i small
    refine (byte i small).mpr ?_
    by_cases inside : addr.toNat % 4096 + i < 4096
    · rw [(inPage i inside).1, (inPage i inside).2]
      exact first
    · rw [(beyond i small inside).1, (beyond i small inside).2]
      exact last (by omega)

omit [DecidableEq Page] in
/-- An aligned word on an ordinary page needs nothing but the entry of its page. -/
theorem stillMapped_of_entry {page : Page} (ordinary : m.kernel.ctx.usrVirtPageMask = 0xfff)
    (entry : m.pageTable (vpn m.kernel.autoLock.watchMem) = some page)
    (aligned : m.kernel.autoLock.watchMem.toNat % 4 = 0) : m.StillMapped world page := by
  refine ⟨⟨page, entry, ?_⟩, fun crosses => ?_⟩
  · have inPage : (m.kernel.autoLock.watchMem &&& 0xfff).toNat ≤ 0xfff := by
      rw [BitVec.toNat_and]
      exact Nat.and_le_right
    rw [MappedState.cachedFrame, ordinary, Nat.div_eq_of_lt (by omega), Nat.add_zero]
  · omega

omit [DecidableEq Page] in
/-- A check that gets to read reads at the watched distance from the cached page. -/
theorem checkMem_eq_read_iff {k : KernelState Page} {mem : BitVec 64 -> BitVec 32}
    {addr : BitVec 64} : (exists dontSched, k.checkMem mem = .read addr dontSched) <->
      k.autoLock.watchMem ≠ 0 ∧ k.ctx.usrPageIsMapped k.autoLock.watchMem = true ∧
        k.ctx.kernVirtPage ≠ 0 ∧ k.ctx.page ≠ none ∧
        k.ctx.kernVirtPage + (k.autoLock.watchMem &&& k.ctx.usrVirtPageMask) = addr := by
  simp only [KernelState.checkMem]
  by_cases isNull : k.autoLock.watchMem = 0
  · simp [isNull]
  cases isMapped : k.ctx.usrPageIsMapped k.autoLock.watchMem with
  | false => simp
  | true =>
      by_cases absent : k.ctx.kernVirtPage = 0 ∨ k.ctx.page.isNone
      · simp only [isNull, absent, if_true, if_false, Bool.true_eq_false, reduceCtorEq,
          exists_false, false_iff]
        rintro ⟨_, _, mapped, held, _⟩
        rcases absent with unmapped | none
        · exact mapped unmapped
        · exact held (Option.isNone_iff_eq_none.mp none)
      · rcases not_or.mp absent with ⟨mapped, held⟩
        rw [Option.isNone_iff_eq_none] at held
        rw [if_neg isNull, if_neg (by decide : ¬true = false), if_neg absent]
        constructor
        · rintro ⟨dontSched, reads⟩
          exact ⟨isNull, rfl, mapped, held, (Event.read.inj reads).1⟩
        · rintro ⟨_, _, _, _, rfl⟩
          exact ⟨_, rfl⟩

omit [DecidableEq Page] in
/-- What a check reads is right exactly if the page is still mapped or it does not read. -/
theorem checkMem_right_iff (ok : MappingOk world.toPageWorld m.kernel.ctx)
    (mem : BitVec 64 -> BitVec 32) :
    (forall addr dontSched, m.kernel.checkMem mem = .read addr dontSched ->
      m.ReadsWatched world addr) <-> m.CheckCurrent world := by
  constructor
  · intro right notNull isMapped mapped page held
    rcases ok mapped with ⟨low, cached, isPage, address⟩
    rcases Option.some.inj (held.symm.trans isPage) with rfl
    have present : m.kernel.ctx.page ≠ none := by
      rw [held]
      exact Option.some_ne_none page
    rcases checkMem_eq_read_iff.mpr ⟨notNull, isMapped, mapped, present, rfl⟩ with
      ⟨dontSched, reads⟩
    exact (readsWatched_iff address low).mp (right _ dontSched reads)
  · intro current addr dontSched reads
    rcases checkMem_eq_read_iff.mp ⟨dontSched, reads⟩ with
      ⟨notNull, isMapped, mapped, _, rfl⟩
    rcases ok mapped with ⟨low, page, held, address⟩
    exact (readsWatched_iff address low).mpr (current notNull isMapped mapped page held)

end check

/-! ## Runs -/

/-- Whatever a step reads through the mapping is the watched word. -/
def readsWatched (world : LinearMap Page) :
    TransitionSystem.Guard (Machine Party (MappedState Page) Phase) (Party × SpaceEvent) :=
  fun _ s label _ => forall addr dontSched, label.2 = .context (.read addr dontSched) ->
    s.shared.ReadsWatched world addr

/-- The checks come while the watched page is still mapped to the cached one. -/
def checksCurrent (world : LinearMap Page) :
    TransitionSystem.Guard (Machine Party (MappedState Page) Phase) (Party × SpaceEvent) :=
  fun _ s label _ => label.1 = .kernel -> s.thread .kernel = .checking ->
    s.shared.CheckCurrent world

theorem step_readsWatched_iff {m m' : MappedState Page} {party : Party} {op : SpaceOp Page}
    {phase phase' : Phase} {event : SpaceEvent} (ok : MappingOk world.toPageWorld m.kernel.ctx)
    (stepped : m.step world party op phase = some (m', phase', event)) :
    (forall addr dontSched, event = .context (.read addr dontSched) -> m.ReadsWatched world addr) <->
      (party = .kernel -> phase = .checking -> m.CheckCurrent world) := by
  rcases MappedState.step_cases stepped with ⟨rfl, _, rfl⟩ | ⟨event', rfl, effect⟩
  · simp
  · simp only [SpaceEvent.context.injEq]
    generalize m'.kernel = k' at effect
    cases effect with
    | wrote => simp
    | armed isIdle | notArmed isIdle | dearmed isIdle | released isIdle => simp [isIdle]
    | cached isCaching | stopped isCaching => simp [isCaching]
    | checked isChecking mem => simpa [isChecking] using checkMem_right_iff ok mem

theorem readsWatched_iff_of_run {trace : List (Party × SpaceEvent)}
    {s s' : Machine Party (MappedState Page) Phase} {label : Party × SpaceEvent}
    (run : (mappedPageSystem world).Run TransitionSystem.unguarded trace s)
    (moved : (mappedPageSystem world).next s label s') :
    readsWatched world trace s label s' <-> checksCurrent world trace s label s' := by
  rcases Program.system_next moved with ⟨op, m', phase', stepped, _⟩
  have same := step_readsWatched_iff (mappingOk_of_run run) stepped
  unfold readsWatched checksCurrent
  rw [same]
  refine forall_congr' fun isKernel => ?_
  rw [isKernel]

/-- In a run, everything that is read through the mapping is the word at
`watch_mem` exactly if every check comes while the page is still mapped. -/
theorem run_readsWatched_iff {trace : List (Party × SpaceEvent)}
    {s : Machine Party (MappedState Page) Phase} :
    (mappedPageSystem world).Run (readsWatched world) trace s <->
      (mappedPageSystem world).Run (checksCurrent world) trace s := by
  constructor
  · intro run
    refine run.transfer fun _ _ _ _ before moved right => ?_
    exact (readsWatched_iff_of_run (before.weaken fun _ _ _ _ _ => trivial) moved).mp right
  · intro run
    refine run.transfer fun _ _ _ _ before moved current => ?_
    exact (readsWatched_iff_of_run (before.weaken fun _ _ _ _ _ => trivial) moved).mpr current

/-! ## Four frames -/

/-- Two single pages, and a compound page of two. -/
def smallMemory : LinearMap (Fin 4) where
  pageCompound := fun p => decide (2 ≤ p)
  compoundHead := fun p => if p = 3 then 2 else p
  pageSize := fun p => if 2 ≤ p then 0x2000 else 0x1000
  kmap := fun p => BitVec.ofNat 64 (2 ^ 63 + 4096 * p)
  head_head := by decide
  head_single := by decide
  size_single := by decide
  kmap_fits := by decide
  pfn := fun p => p
  pageOffset := 2 ^ 63
  high := by decide
  linear := by decide
  fits := by decide

namespace SmallMemory

abbrev Schedule := List (Party × SpaceOp (Fin 4))

def mmap (page : Nat) (entry : Fin 4) : Schedule :=
  [(.user, .remap page (some entry))]

/-- The user watches an address and the kernel pins its page. -/
def watch (watchMem : BitVec 64) (page : Fin 4) : Schedule :=
  [(.user, .context (.write ⟨watchMem, 1, 0⟩)), (.kernel, .context .cachePhysAddr),
    (.kernel, .context (.pinUserPages (.ok page)))]

def checked (schedule : Schedule) :
    Machine Party (MappedState (Fin 4)) Phase × List (Party × SpaceEvent) :=
  (mappedPage smallMemory).play (schedule ++ [(.kernel, .context .dontSched)])
    (createdIn ⟨0, 0, 0⟩ fun _ => none)

/-- A run after which the check reads something else than the watched word. -/
def LeadsToWrongRead (schedule : Schedule) (addr : BitVec 64) : Prop :=
  (mappedPageSystem smallMemory).Run TransitionSystem.unguarded
      (checked schedule).2 (checked schedule).1 ∧
    (exists s', (mappedPageSystem smallMemory).next (checked schedule).1
      (.kernel, .context (.read addr true)) s') ∧
    ¬(checked schedule).1.shared.ReadsWatched smallMemory addr

end SmallMemory

omit [DecidableEq Page] in
theorem MappedState.ReadsWatched.first {m : MappedState Page} {addr : BitVec 64}
    (reads : m.ReadsWatched world addr) :
    world.userByte m.pageTable m.kernel.autoLock.watchMem = world.kernelByte addr := by
  rcases reads 0 (by decide) with ⟨byte, user, kernel⟩
  rw [BitVec.add_zero] at user kernel
  rw [user, kernel]

open SmallMemory in
/-- The user maps another page at the watched address; the watched address is
in a compound page that is not aligned to two megabytes. -/
theorem wrong_reads :
    LeadsToWrongRead (mmap 5 0 ++ watch 0x5008 0 ++ mmap 5 1) 0x8000000000000008 ∧
      LeadsToWrongRead (mmap 5 2 ++ mmap 6 3 ++ watch 0x6008 3) 0x8000000000008008 := by
  refine ⟨⟨?_, ⟨_, .context (.checkMem fun _ => 0), rfl⟩, fun reads => ?_⟩,
    ⟨?_, ⟨_, .context (.checkMem fun _ => 0), rfl⟩, fun reads => ?_⟩⟩
  · exact Program.run_play ⟨_, _, rfl⟩ _ (by decide)
  · exact absurd reads.first (by decide)
  · exact Program.run_play ⟨_, _, rfl⟩ _ (by decide)
  · exact absurd reads.first (by decide)

end Kernel
end Autolock
