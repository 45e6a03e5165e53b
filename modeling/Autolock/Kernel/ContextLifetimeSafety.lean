import Autolock.Kernel.ContextLifetime

namespace Autolock
namespace Kernel

open Concurrency

/-!
# Nothing is freed twice, and what is freed too early

A context is in one field, or in the hands of a `create` that has not returned,
and its page is in no other context.  Therefore nothing is freed twice, whatever
the order of the calls.  Files and mappings have no part in it, so that a context
is freed too early exactly if its task lets go of it while a file is open that
refers to it, or if `create` frees it and leaves the file behind.
-/

/-! ## Who owns what -/

/-- Every context in a field is live and in no other field, and every live context
has a live page of its own.  `held` is a context that `create` has in its hands. -/
structure Owned {Tid : Type} (ctxs : Heap CtxAddr (Option PageAddr)) (pages : Heap PageAddr Unit)
    (field : Tid -> Option CtxAddr) (held : Option CtxAddr) : Prop where
  live : forall t ctx, field t = some ctx -> ctxs.live ctx = true
  unique : forall t u ctx, field t = some ctx -> field u = some ctx -> t = u
  heldLive : forall ctx, held = some ctx -> ctxs.live ctx = true
  apart : forall t ctx, field t = some ctx -> held ≠ some ctx
  page : forall ctx, ctxs.live ctx = true ->
    exists page, ctxs.word ctx = some page ∧ pages.live page = true
  distinct : forall ctx ctx', ctxs.live ctx = true -> ctxs.live ctx' = true ->
    ctxs.word ctx = ctxs.word ctx' -> ctx = ctx'
  ctxsOnce : forall ctx, .doubleFree ctx ∉ ctxs.faults
  pagesOnce : forall page, .doubleFree page ∉ pages.faults

namespace Owned

variable {Tid : Type} {ctxs : Heap CtxAddr (Option PageAddr)} {pages : Heap PageAddr Unit}
  {field : Tid -> Option CtxAddr} {held : Option CtxAddr} {ctx : CtxAddr} {page : PageAddr}

/-- The words of freed contexts do not matter. -/
theorem congr (owned : Owned ctxs pages field held) {ctxs' : Heap CtxAddr (Option PageAddr)}
    (live : ctxs'.live = ctxs.live)
    (word : forall c, ctxs.live c = true -> ctxs'.word c = ctxs.word c)
    (once : forall c, .doubleFree c ∉ ctxs'.faults) : Owned ctxs' pages field held := by
  refine ⟨?_, owned.unique, ?_, owned.apart, ?_, ?_, once, owned.pagesOnce⟩ <;> rw [live]
  · exact owned.live
  · exact owned.heldLive
  · intro c isLive
    rw [word c isLive]
    exact owned.page c isLive
  · intro c c' isLive isLive'
    rw [word c isLive, word c' isLive']
    exact owned.distinct c c' isLive isLive'

theorem touch (owned : Owned ctxs pages field held) (ctx : CtxAddr) :
    Owned (ctxs.touch ctx) pages field held := by
  refine owned.congr Heap.touch_live (fun c _ => by rw [Heap.touch_word]) fun c => ?_
  rw [Heap.doubleFree_mem_touch]
  exact owned.ctxsOnce c

/-- A context that has just been allocated is given a page. -/
theorem alloc (owned : Owned ctxs pages field none) (fresh : ctxs.live ctx = false)
    (fresh' : pages.live page = false) :
    Owned (((ctxs.malloc ctx fresh).store ctx none).store ctx (some page))
      (pages.malloc page fresh') field (some ctx) := by
  have liveIff : forall c, (((ctxs.malloc ctx fresh).store ctx none).store ctx (some page)).live c =
      true <-> c = ctx ∨ ctxs.live c = true := by
    intro c
    by_cases same : c = ctx <;> simp [same, Function.update]
  have word : forall c, c ≠ ctx ->
      (((ctxs.malloc ctx fresh).store ctx none).store ctx (some page)).word c = ctxs.word c := by
    intro c different
    simp [different]
  have wordSelf : (((ctxs.malloc ctx fresh).store ctx none).store ctx (some page)).word ctx =
      some page := by simp
  have notFresh : forall c, ctxs.live c = true -> c ≠ ctx := by
    rintro c isLive rfl
    rw [fresh] at isLive
    cases isLive
  have pageElsewhere : forall c, ctxs.live c = true -> ctxs.word c ≠ some page := by
    intro c isLive holds
    rcases owned.page c isLive with ⟨page', holds', isLive'⟩
    rcases Option.some.inj (holds.symm.trans holds') with rfl
    rw [fresh'] at isLive'
    cases isLive'
  refine ⟨fun t c holds => (liveIff c).mpr (Or.inr (owned.live t c holds)), owned.unique, ?_, ?_,
    ?_, ?_, ?_, ?_⟩
  · rintro c ⟨⟩
    exact (liveIff ctx).mpr (Or.inl rfl)
  · rintro t c holds ⟨⟩
    exact notFresh ctx (owned.live t ctx holds) rfl
  · intro c isLive
    rcases (liveIff c).mp isLive with rfl | before
    · exact ⟨page, wordSelf, by simp⟩
    · rcases owned.page c before with ⟨page', holds, isLive'⟩
      refine ⟨page', (word c (notFresh c before)).trans holds, ?_⟩
      simp [Function.update_apply, isLive']
  · intro c c' isLive isLive' same
    rcases (liveIff c).mp isLive with rfl | before <;> rcases (liveIff c').mp isLive' with rfl | before'
    · rfl
    · rw [wordSelf, word c' (notFresh c' before')] at same
      exact absurd same.symm (pageElsewhere c' before')
    · rw [wordSelf, word c (notFresh c before)] at same
      exact absurd same (pageElsewhere c before)
    · rw [word c (notFresh c before), word c' (notFresh c' before')] at same
      exact owned.distinct c c' before before' same
  · intro c
    rw [Heap.doubleFree_mem_store, Heap.doubleFree_mem_store]
    exact owned.ctxsOnce c
  · exact owned.pagesOnce

/-- A context that nobody has stored a page in is given back. -/
theorem giveBack (owned : Owned ctxs pages field held) (fresh : ctxs.live ctx = false) :
    Owned (((ctxs.malloc ctx fresh).store ctx none).free ctx) pages field held := by
  have isLive : ((ctxs.malloc ctx fresh).store ctx none).live ctx = true := by simp
  refine owned.congr ?_ (fun c before => ?_) fun c => ?_
  · rw [Heap.free_live isLive, Heap.store_live, Heap.malloc_live, Function.update_idem, ← fresh,
      Function.update_eq_self]
  · have different : c ≠ ctx := by
      rintro rfl
      rw [fresh] at before
      cases before
    rw [Heap.free_word, Heap.store_word, Function.update_of_ne different, Heap.malloc_word]
  · rw [Heap.free_faults isLive, Heap.doubleFree_mem_store]
    exact owned.ctxsOnce c

/-- The context in hand is freed with its page. -/
theorem free (owned : Owned ctxs pages field (some ctx)) (holds : ctxs.word ctx = some page) :
    Owned ((ctxs.touch ctx).free ctx) (pages.free page) field none := by
  have ctxLive : ctxs.live ctx = true := owned.heldLive ctx rfl
  have pageLive : pages.live page = true := by
    rcases owned.page ctx ctxLive with ⟨page', holds', isLive⟩
    rcases Option.some.inj (holds.symm.trans holds') with rfl
    exact isLive
  rw [Heap.touch_of_live ctxLive]
  have liveIff : forall c, (ctxs.free ctx).live c = true <-> c ≠ ctx ∧ ctxs.live c = true := by
    intro c
    rw [Heap.free_live ctxLive]
    by_cases same : c = ctx <;> simp [same]
  refine ⟨?_, owned.unique, nofun, fun _ _ _ => nofun, ?_, ?_, ?_, ?_⟩
  · intro t c inField
    have different : c ≠ ctx := fun same => owned.apart t c inField (congrArg some same.symm)
    exact (liveIff c).mpr ⟨different, owned.live t c inField⟩
  · intro c isLive
    rcases (liveIff c).mp isLive with ⟨different, before⟩
    rcases owned.page c before with ⟨page', holds', isLive'⟩
    have other : page' ≠ page := by
      rintro rfl
      exact different (owned.distinct c ctx before ctxLive (holds'.trans holds.symm))
    refine ⟨page', by rw [Heap.free_word, holds'], ?_⟩
    rw [Heap.free_live pageLive, Function.update_of_ne other]
    exact isLive'
  · intro c c' isLive isLive'
    rw [Heap.free_word]
    exact owned.distinct c c' ((liveIff c).mp isLive).2 ((liveIff c').mp isLive').2
  · rw [Heap.free_faults ctxLive]
    exact owned.ctxsOnce
  · rw [Heap.free_faults pageLive]
    exact owned.pagesOnce

section fields

variable [DecidableEq Tid] {t : Tid}

/-- The context in hand goes into a field. -/
theorem install (owned : Owned ctxs pages field (some ctx)) :
    Owned ctxs pages (Function.update field t (some ctx)) none := by
  have cases : forall u c, Function.update field t (some ctx) u = some c ->
      (u = t ∧ c = ctx) ∨ (u ≠ t ∧ field u = some c) := by
    intro u c holds
    by_cases same : u = t
    · subst same
      rw [Function.update_self] at holds
      exact Or.inl ⟨rfl, (Option.some.inj holds).symm⟩
    · rw [Function.update_of_ne same] at holds
      exact Or.inr ⟨same, holds⟩
  refine ⟨?_, ?_, nofun, fun _ _ _ => nofun, owned.page, owned.distinct, owned.ctxsOnce,
    owned.pagesOnce⟩
  · intro u c holds
    rcases cases u c holds with ⟨_, rfl⟩ | ⟨_, before⟩
    · exact owned.heldLive c rfl
    · exact owned.live u c before
  · intro u v c first second
    rcases cases u c first with ⟨rfl, rfl⟩ | ⟨_, before⟩ <;>
      rcases cases v _ second with ⟨rfl, same⟩ | ⟨_, before'⟩
    · rfl
    · exact absurd rfl (owned.apart v _ before')
    · exact absurd (congrArg some same.symm) (owned.apart u _ before)
    · exact owned.unique u v c before before'

/-- A context is taken out of its field. -/
theorem take (owned : Owned ctxs pages field none) (holds : field t = some ctx) :
    Owned ctxs pages (Function.update field t none) (some ctx) := by
  have before : forall u c, Function.update field t none u = some c ->
      u ≠ t ∧ field u = some c := by
    intro u c inField
    by_cases same : u = t
    · subst same
      rw [Function.update_self] at inField
      cases inField
    · rw [Function.update_of_ne same] at inField
      exact ⟨same, inField⟩
  refine ⟨fun u c inField => owned.live u c (before u c inField).2,
    fun u v c first second => owned.unique u v c (before u c first).2 (before v c second).2,
    ?_, ?_, owned.page, owned.distinct, owned.ctxsOnce, owned.pagesOnce⟩
  · rintro c ⟨⟩
    exact owned.live t ctx holds
  · rintro u c inField ⟨⟩
    rcases before u ctx inField with ⟨different, inField'⟩
    exact different (owned.unique u t ctx inField' holds)

end fields

end Owned

/-! ## What one step does -/

namespace Process

/-- The step frees nothing: it may read a context, and open files may be closed
or mapped. -/
structure Views (p p' : Process) : Prop where
  ctxs : p'.ctxs = p.ctxs ∨ exists ctx, p'.ctxs = p.ctxs.touch ctx
  pages : p'.pages = p.pages
  privateData : p'.privateData = p.privateData
  isOpen : forall file, p'.IsOpen file -> p.IsOpen file
  mapped : forall vma ptr file, (vma, ptr, file) ∈ p'.vmas -> (vma, ptr, file) ∈ p.vmas ∨
    (p.ctxs.live (p.privateData file) = true -> ptr = p.ctxs.word (p.privateData file))

/-- The paths of `create`. -/
inductive CreateEffect (p : Process) (task : Task) (ctx : CtxAddr) (page : PageAddr)
    (file : FileAddr) (fd : Nat) : Option CreateFailure -> Process -> Task -> Prop
  | refused {failure : Option CreateFailure}
      (why : task.autoLock ≠ none ∨ failure = some .noCtx) :
      CreateEffect p task ctx page file fd failure p task
  | noPage {p₁ : Process} (first : p.kzalloc ctx = some p₁) :
      CreateEffect p task ctx page file fd (some .noPage) (p₁.kfree ctx) task
  | noFile {p₁ p₂ : Process} {err : Int} (first : p.kzalloc ctx = some p₁)
      (second : p₁.allocMem ctx page = some p₂) :
      CreateEffect p task ctx page file fd (some (.noFile err)) (p₂.freeCtx ctx) task
  | noFd {p₁ p₂ p₃ : Process} {err : Int} (none : task.autoLock = none)
      (first : p.kzalloc ctx = some p₁) (second : p₁.allocMem ctx page = some p₂)
      (third : p₂.getFile ctx file = some p₃) :
      CreateEffect p task ctx page file fd (some (.noFd err)) (p₃.freeCtx ctx) task
  | done {p₁ p₂ p₃ p₄ : Process} (first : p.kzalloc ctx = some p₁)
      (second : p₁.allocMem ctx page = some p₂) (third : p₂.getFile ctx file = some p₃)
      (fourth : p₃.fdInstall file fd = some p₄) :
      CreateEffect p task ctx page file fd none p₄ { task with autoLock := some ctx }

/-- The operations that may free a context. -/
def mayFree : LifetimeOp -> Bool
  | .create .. | .destroy | .putTaskStruct => true
  | _ => false

inductive LifetimeEffect (p : Process) (task : Task) :
    LifetimeOp -> Process -> Task -> Prop
  | creates {failure : Option CreateFailure} {ctx : CtxAddr} {page : PageAddr} {file : FileAddr}
      {fd : Nat} {p' : Process} {task' : Task}
      (effect : CreateEffect p task ctx page file fd failure p' task') :
      LifetimeEffect p task (.create failure ctx page file fd) p' task'
  | releases {op : LifetimeOp} (lets : op = .destroy ∨ op = .putTaskStruct) (state : TaskState) :
      LifetimeEffect p task op (p.release task.autoLock) ⟨state, none⟩
  | views {op : LifetimeOp} (keeps : mayFree op = false) {p' : Process} {task' : Task}
      (views : Views p p') (field : task'.autoLock = task.autoLock ∨ task'.autoLock = none) :
      LifetimeEffect p task op p' task'

section effect

variable {p p' : Process} {task task' : Task}

theorem isOpen_of_lookup {fd : Nat} {file : FileAddr} (found : p.fds.lookup fd = some file) :
    p.IsOpen file := by
  rcases List.lookup_eq_some_iff.mp found with ⟨before, after, whole, _⟩
  refine Or.inr (Or.inl ⟨fd, ?_⟩)
  rw [whole]
  simp

theorem create_effect {failure : Option CreateFailure} {ctx : CtxAddr} {page : PageAddr}
    {file : FileAddr} {fd : Nat} {ret : Int}
    (created : p.create task failure ctx page file fd = some (p', task', ret)) :
    CreateEffect p task ctx page file fd failure p' task' := by
  unfold create at created
  split at created
  · next present =>
      cases created
      refine .refused (Or.inl fun absent => ?_)
      rw [absent] at present
      cases present
  · next absent =>
      rw [Option.not_isSome_iff_eq_none] at absent
      rcases failure with _ | _ | _ | err | err
      case none =>
        simp only [Option.bind_eq_bind, Option.bind_eq_some_iff] at created
        rcases created with ⟨p₁, first, p₂, second, p₃, third, p₄, fourth, done⟩
        cases done
        exact .done first second third fourth
      case some.noCtx =>
        cases created
        exact .refused (Or.inr rfl)
      case some.noPage =>
        simp only [Option.bind_eq_bind, Option.bind_eq_some_iff] at created
        rcases created with ⟨p₁, first, done⟩
        cases done
        exact .noPage first
      case some.noFile =>
        simp only [Option.bind_eq_bind, Option.bind_eq_some_iff] at created
        rcases created with ⟨p₁, first, p₂, second, done⟩
        cases done
        exact .noFile first second
      case some.noFd =>
        simp only [Option.bind_eq_bind, Option.bind_eq_some_iff] at created
        rcases created with ⟨p₁, first, p₂, second, p₃, third, done⟩
        cases done
        exact .noFd absent first second third

/-- A process that differs in its descriptors only, by files that were open. -/
theorem views_of_fds {fds : List (Nat × FileAddr)}
    (opened : forall entry, entry ∈ fds -> p.IsOpen entry.2) : Views p { p with fds := fds } where
  ctxs := Or.inl rfl
  pages := rfl
  privateData := rfl
  isOpen := by
    rintro file (pending | ⟨fd, entry⟩ | mapped)
    · exact Or.inl pending
    · exact opened _ entry
    · exact Or.inr (Or.inr mapped)
  mapped := fun _ _ _ member => Or.inl member

/-- A process that differs in its mappings only, by some that are gone. -/
theorem views_of_vmas {vmas : List (Nat × Option PageAddr × FileAddr)}
    (kept : forall entry, entry ∈ vmas -> entry ∈ p.vmas) : Views p { p with vmas := vmas } where
  ctxs := Or.inl rfl
  pages := rfl
  privateData := rfl
  isOpen := by
    rintro file (pending | installed | ⟨vma, ptr, entry⟩)
    · exact Or.inl pending
    · exact Or.inr (Or.inl installed)
    · exact Or.inr (Or.inr ⟨vma, ptr, kept _ entry⟩)
  mapped := fun _ _ _ member => Or.inl (kept _ member)

theorem views_touch (p : Process) (ctx : CtxAddr) :
    Views p { p with ctxs := p.ctxs.touch ctx } where
  ctxs := Or.inr ⟨ctx, rfl⟩
  pages := rfl
  privateData := rfl
  isOpen := fun _ isOpen => isOpen
  mapped := fun _ _ _ member => Or.inl member

theorem views_users (p : Process) (users : Nat) : Views p { p with users := users } where
  ctxs := Or.inl rfl
  pages := rfl
  privateData := rfl
  isOpen := fun _ isOpen => isOpen
  mapped := fun _ _ _ member => Or.inl member

theorem views_doExit (p : Process) : Views p p.doExit := by
  unfold doExit
  split
  · exact ⟨Or.inl rfl, rfl, rfl, fun file isOpen => Or.inl (by simpa [IsOpen] using isOpen),
      fun _ _ _ member => nomatch member⟩
  · exact views_users p _

theorem views_mmap {file : FileAddr} (isOpen : p.IsOpen file) {vma sz : Nat}
    {stale : Option PageAddr} {ret ret' : Int}
    (mapped : p.mmap file vma sz stale ret = some (p', ret')) : Views p p' := by
  simp only [mmap] at mapped
  split at mapped
  · cases mapped
    exact views_touch p _
  · split at mapped
    · cases mapped
      exact views_touch p _
    · split at mapped <;> cases mapped
      refine ⟨Or.inr ⟨_, rfl⟩, rfl, rfl, ?_, ?_⟩
      · rintro other (pending | installed | ⟨vma', ptr, entry⟩)
        · exact Or.inl pending
        · exact Or.inr (Or.inl installed)
        · rcases List.mem_cons.mp entry with same | before
          · cases same
            exact isOpen
          · exact Or.inr (Or.inr ⟨vma', ptr, before⟩)
      · intro vma' ptr other member
        rcases List.mem_cons.mp member with same | before
        · cases same
          exact Or.inr fun live => if_pos live
        · exact Or.inl before

theorem step_lifetimeEffect {op : LifetimeOp} {ret : Int}
    (stepped : step op p task = some (p', task', ret)) : LifetimeEffect p task op p' task' := by
  rcases task with ⟨state, autoLock⟩
  cases state <;> cases op <;> simp only [step, reduceCtorEq] at stepped
  case unborn.clone =>
    split at stepped <;> cases stepped
    exact .views rfl (views_users p _) (Or.inr rfl)
  case alive.create => exact .creates (create_effect stepped)
  case alive.destroy =>
    cases stepped
    exact .releases (Or.inl rfl) _
  case alive.mmap =>
    simp only [Option.bind_eq_bind, Option.bind_eq_some_iff] at stepped
    rcases stepped with ⟨file, found, ⟨p₁, ret₁⟩, mapped, done⟩
    cases done
    exact .views rfl (views_mmap (isOpen_of_lookup found) mapped) (Or.inl rfl)
  case alive.munmap =>
    cases stepped
    exact .views rfl (views_of_vmas fun _ kept => List.mem_of_mem_filter kept) (Or.inl rfl)
  case alive.poll =>
    simp only [Option.bind_eq_bind, Option.bind_eq_some_iff] at stepped
    rcases stepped with ⟨file, found, done⟩
    cases done
    exact .views rfl (views_touch p _) (Or.inl rfl)
  case alive.dup =>
    simp only [Option.bind_eq_bind, Option.bind_eq_some_iff] at stepped
    rcases stepped with ⟨file, found, done⟩
    split at done <;> cases done
    refine .views rfl (views_of_fds fun entry member => ?_) (Or.inl rfl)
    rcases List.mem_cons.mp member with rfl | before
    · exact isOpen_of_lookup found
    · exact Or.inr (Or.inl ⟨entry.1, before⟩)
  case alive.close =>
    cases stepped
    refine .views rfl (views_of_fds fun entry kept => ?_) (Or.inl rfl)
    exact Or.inr (Or.inl ⟨entry.1, List.mem_of_mem_filter kept⟩)
  case alive.exit =>
    cases stepped
    exact .views rfl (views_doExit p) (Or.inl rfl)
  case dead.putTaskStruct =>
    cases stepped
    exact .releases (Or.inr rfl) _

end effect

end Process

/-! ## Nothing is freed twice -/

namespace Process

theorem kzalloc_eq_some {p p' : Process} {ctx : CtxAddr} (allocated : p.kzalloc ctx = some p') :
    exists fresh, p' = { p with ctxs := (p.ctxs.malloc ctx fresh).store ctx none } := by
  unfold kzalloc at allocated
  split at allocated <;> cases allocated
  next fresh => exact ⟨fresh, rfl⟩

theorem allocMem_eq_some {p p' : Process} {ctx : CtxAddr} {page : PageAddr}
    (allocated : p.allocMem ctx page = some p') :
    exists fresh, p' = { p with
      pages := p.pages.malloc page fresh
      ctxs := p.ctxs.store ctx (some page) } := by
  unfold allocMem at allocated
  split at allocated <;> cases allocated
  next fresh => exact ⟨fresh, rfl⟩

theorem getFile_eq_some {p p' : Process} {ctx : CtxAddr} {file : FileAddr}
    (opened : p.getFile ctx file = some p') : ¬p.IsOpen file ∧ p' = { p with
      privateData := Function.update p.privateData file ctx
      uninstalled := file :: p.uninstalled } := by
  unfold getFile at opened
  split at opened <;> cases opened
  next closed => exact ⟨closed, rfl⟩

theorem fdInstall_eq_some {p p' : Process} {file : FileAddr} {fd : Nat}
    (installed : p.fdInstall file fd = some p') : p' = { p with
      uninstalled := p.uninstalled.erase file
      fds := (fd, file) :: p.fds } := by
  unfold fdInstall at installed
  split at installed <;> cases installed
  rfl

end Process

section once

variable {Tid : Type} {p p' : Process} {task task' : Task} {field : Tid -> Option CtxAddr}
  {ctx : CtxAddr} {page : PageAddr}

theorem Owned.kzalloc_allocMem (owned : Owned p.ctxs p.pages field none) {p₁ p₂ : Process}
    (first : p.kzalloc ctx = some p₁) (second : p₁.allocMem ctx page = some p₂) :
    Owned p₂.ctxs p₂.pages field (some ctx) := by
  rcases Process.kzalloc_eq_some first with ⟨fresh, rfl⟩
  rcases Process.allocMem_eq_some second with ⟨fresh', rfl⟩
  exact owned.alloc fresh fresh'

theorem Owned.freeCtx (owned : Owned p.ctxs p.pages field (some ctx)) :
    Owned (p.freeCtx ctx).ctxs (p.freeCtx ctx).pages field none := by
  rcases owned.page ctx (owned.heldLive ctx rfl) with ⟨page, holds, _⟩
  simp only [Process.freeCtx, holds]
  exact owned.free holds

variable [DecidableEq Tid] {t : Tid}

theorem Owned.release (owned : Owned p.ctxs p.pages field none) :
    Owned (p.release (field t)).ctxs (p.release (field t)).pages (Function.update field t none)
      none := by
  cases holds : field t with
  | none =>
      rw [Function.update_eq_self_iff.mpr holds.symm]
      exact owned
  | some ctx => exact (owned.take holds).freeCtx

theorem Process.CreateEffect.owned {file : FileAddr} {fd : Nat} {failure : Option CreateFailure}
    (effect : CreateEffect p task ctx page file fd failure p' task')
    (owned : Owned p.ctxs p.pages field none) (here : field t = task.autoLock) :
    Owned p'.ctxs p'.pages (Function.update field t task'.autoLock) none := by
  cases effect with
  | refused =>
      rw [← here, Function.update_eq_self]
      exact owned
  | noPage first =>
      rcases Process.kzalloc_eq_some first with ⟨fresh, rfl⟩
      rw [← here, Function.update_eq_self]
      exact owned.giveBack fresh
  | noFile first second =>
      rw [← here, Function.update_eq_self]
      exact (owned.kzalloc_allocMem first second).freeCtx
  | noFd _ first second third =>
      rw [← here, Function.update_eq_self]
      rcases Process.getFile_eq_some third with ⟨_, rfl⟩
      have held := owned.kzalloc_allocMem first second
      exact Owned.freeCtx held
  | done first second third fourth =>
      rcases Process.getFile_eq_some third with ⟨_, rfl⟩
      rcases Process.fdInstall_eq_some fourth with rfl
      exact (owned.kzalloc_allocMem first second).install

/-- A field that is overwritten with NULL is one owner less. -/
theorem Owned.forget (owned : Owned p.ctxs p.pages field none) :
    Owned p.ctxs p.pages (Function.update field t none) none := by
  cases holds : field t with
  | none =>
      rw [Function.update_eq_self_iff.mpr holds.symm]
      exact owned
  | some ctx =>
      have taken := owned.take holds
      exact ⟨taken.live, taken.unique, nofun, fun _ _ _ => nofun, taken.page, taken.distinct,
        taken.ctxsOnce, taken.pagesOnce⟩

theorem Process.LifetimeEffect.owned {op : LifetimeOp} (effect : LifetimeEffect p task op p' task')
    (owned : Owned p.ctxs p.pages field none) (here : field t = task.autoLock) :
    Owned p'.ctxs p'.pages (Function.update field t task'.autoLock) none := by
  cases effect with
  | creates effect => exact effect.owned owned here
  | releases =>
      rw [← here]
      exact owned.release
  | views _ views kept =>
      have same : Owned p'.ctxs p'.pages field none := by
        rw [views.pages]
        rcases views.ctxs with same | ⟨ctx, same⟩ <;> rw [same]
        · exact owned
        · exact owned.touch ctx
      rcases kept with kept | cleared
      · rw [kept, ← here, Function.update_eq_self]
        exact same
      · rw [cleared]
        exact same.forget

end once

/-! ## What is freed too early -/

/-- Every open file refers to a live context, and a mapping shows the page of its
file's context. -/
structure Referenced (p : Process) : Prop where
  files : forall file, p.IsOpen file -> p.ctxs.live (p.privateData file) = true
  mapped : forall vma ptr file, (vma, ptr, file) ∈ p.vmas ->
    ptr = p.ctxs.word (p.privateData file)

/-- No open file refers to the context. -/
def Unreferenced (p : Process) (ctx : CtxAddr) : Prop :=
  forall file, p.IsOpen file -> p.privateData file ≠ ctx

/-- The condition on a step: a task lets go of its context while no open file
refers to it, and `create` gets a descriptor for its file. -/
def KeepsReferenced (p : Process) (task : Task) : LifetimeOp -> Prop
  | .destroy | .putTaskStruct => forall ctx, task.autoLock = some ctx -> Unreferenced p ctx
  | .create (some (.noFd _)) .. => task.autoLock ≠ none
  | _ => True

instance (p : Process) (ctx : CtxAddr) : Decidable (Unreferenced p ctx) :=
  decidable_of_iff (forall file, file ∈ p.openFiles -> p.privateData file ≠ ctx)
    (forall_congr' fun _ => imp_congr_left Process.mem_openFiles)

instance (p : Process) (task : Task) (op : LifetimeOp) : Decidable (KeepsReferenced p task op) := by
  have decided : Decidable (forall ctx, task.autoLock = some ctx -> Unreferenced p ctx) :=
    inferInstanceAs (Decidable (forall ctx, ctx ∈ task.autoLock -> Unreferenced p ctx))
  unfold KeepsReferenced
  split <;> infer_instance

section referenced

variable {p p' : Process} {task task' : Task} {ctx : CtxAddr} {page : PageAddr}

/-- Whatever happens to a context that no open file refers to. -/
theorem Referenced.congr (referenced : Referenced p)
    (isOpen : forall file, p'.IsOpen file -> p.IsOpen file)
    (privateData : p'.privateData = p.privateData)
    (live : forall file, p.IsOpen file -> p'.ctxs.live (p.privateData file) = true)
    (word : forall file, p.IsOpen file ->
      p'.ctxs.word (p.privateData file) = p.ctxs.word (p.privateData file))
    (vmas : p'.vmas = p.vmas) : Referenced p' where
  files := by
    intro file opened
    rw [privateData]
    exact live file (isOpen file opened)
  mapped := by
    intro vma ptr file member
    rw [vmas] at member
    rw [privateData, word file (Or.inr (Or.inr ⟨vma, ptr, member⟩))]
    exact referenced.mapped vma ptr file member

/-- An open file does not refer to an address that is about to be allocated. -/
theorem Referenced.unreferenced (referenced : Referenced p) (fresh : p.ctxs.live ctx = false) :
    Unreferenced p ctx := by
  rintro file opened rfl
  rw [referenced.files file opened] at fresh
  cases fresh

theorem Referenced.views (referenced : Referenced p) (views : p.Views p') : Referenced p' := by
  have live : p'.ctxs.live = p.ctxs.live := by
    rcases views.ctxs with same | ⟨ctx, same⟩ <;> simp [same]
  have word : p'.ctxs.word = p.ctxs.word := by
    rcases views.ctxs with same | ⟨ctx, same⟩ <;> simp [same]
  refine ⟨fun file opened => ?_, fun vma ptr file member => ?_⟩
  · rw [live, views.privateData]
    exact referenced.files file (views.isOpen file opened)
  · rw [word, views.privateData]
    rcases views.mapped vma ptr file member with before | shows
    · exact referenced.mapped vma ptr file before
    · exact shows (referenced.files file (views.isOpen file (Or.inr (Or.inr ⟨vma, ptr, member⟩))))

theorem Referenced.freeCtx (referenced : Referenced p) (ctxLive : p.ctxs.live ctx = true)
    (unreferenced : Unreferenced p ctx) : Referenced (p.freeCtx ctx) := by
  refine referenced.congr (fun _ opened => opened) rfl (fun file opened => ?_)
    (fun file _ => ?_) rfl
  · simp only [Process.freeCtx, Heap.touch_of_live ctxLive]
    rw [Heap.free_live ctxLive, Function.update_of_ne (unreferenced file opened)]
    exact referenced.files file opened
  · simp only [Process.freeCtx, Heap.free_word, Heap.touch_word]

theorem Referenced.kzalloc (referenced : Referenced p) (allocated : p.kzalloc ctx = some p') :
    Referenced p' ∧ Unreferenced p' ctx ∧ p'.ctxs.live ctx = true := by
  rcases Process.kzalloc_eq_some allocated with ⟨fresh, rfl⟩
  have unreferenced := referenced.unreferenced fresh
  refine ⟨referenced.congr (fun _ opened => opened) rfl (fun file opened => ?_)
    (fun file opened => ?_) rfl, unreferenced, by simp⟩
  · simp [Function.update_of_ne (unreferenced file opened), referenced.files file opened]
  · simp [Function.update_of_ne (unreferenced file opened)]

theorem Referenced.allocMem (referenced : Referenced p) (unreferenced : Unreferenced p ctx)
    (allocated : p.allocMem ctx page = some p') :
    Referenced p' ∧ Unreferenced p' ctx ∧ p'.ctxs.live = p.ctxs.live := by
  rcases Process.allocMem_eq_some allocated with ⟨fresh, rfl⟩
  refine ⟨referenced.congr (fun _ opened => opened) rfl (fun file opened => ?_)
    (fun file opened => ?_) rfl, unreferenced, by simp⟩
  · simp [referenced.files file opened]
  · simp [Function.update_of_ne (unreferenced file opened)]

/-- `create` opens a file that refers to its context, which has a page. -/
theorem Referenced.install (referenced : Referenced p) (ctxLive : p.ctxs.live ctx = true)
    {file : FileAddr} {fd : Nat} {p₁ : Process} (opened : p.getFile ctx file = some p₁)
    (installed : p₁.fdInstall file fd = some p') : Referenced p' := by
  rcases Process.getFile_eq_some opened with ⟨closed, rfl⟩
  rcases Process.fdInstall_eq_some installed with rfl
  have isOpen : forall other, other ≠ file -> Process.IsOpen { p with
      privateData := Function.update p.privateData file ctx
      uninstalled := (file :: p.uninstalled).erase file
      fds := (fd, file) :: p.fds } other -> p.IsOpen other := by
    rintro other different (pending | ⟨fd', entry⟩ | mapped)
    · rw [List.erase_cons_head] at pending
      exact Or.inl pending
    · rcases List.mem_cons.mp entry with same | before
      · exact absurd (Prod.mk.inj same).2 different
      · exact Or.inr (Or.inl ⟨fd', before⟩)
    · exact Or.inr (Or.inr mapped)
  refine ⟨fun other nowOpen => ?_, fun vma ptr other member => ?_⟩
  · show p.ctxs.live (Function.update p.privateData file ctx other) = true
    by_cases same : other = file
    · rw [same, Function.update_self]
      exact ctxLive
    · rw [Function.update_of_ne same]
      exact referenced.files other (isOpen other same nowOpen)
  · have different : other ≠ file := by
      rintro rfl
      exact closed (Or.inr (Or.inr ⟨vma, ptr, member⟩))
    show ptr = p.ctxs.word (Function.update p.privateData file ctx other)
    rw [Function.update_of_ne different]
    exact referenced.mapped vma ptr other member

theorem Process.CreateEffect.referenced {file : FileAddr} {fd : Nat}
    {failure : Option CreateFailure}
    (effect : CreateEffect p task ctx page file fd failure p' task') (referenced : Referenced p)
    (keeps : KeepsReferenced p task (.create failure ctx page file fd)) : Referenced p' := by
  cases effect with
  | refused => exact referenced
  | noPage first =>
      rcases referenced.kzalloc first with ⟨referenced₁, unreferenced, ctxLive⟩
      refine referenced₁.congr (fun _ opened => opened) rfl (fun file opened => ?_)
        (fun file _ => ?_) rfl
      · simp only [Process.kfree]
        rw [Heap.free_live ctxLive, Function.update_of_ne (unreferenced file opened)]
        exact referenced₁.files file opened
      · simp only [Process.kfree, Heap.free_word]
  | noFile first second =>
      rcases referenced.kzalloc first with ⟨referenced₁, unreferenced₁, ctxLive⟩
      rcases referenced₁.allocMem unreferenced₁ second with ⟨referenced₂, unreferenced₂, same⟩
      exact referenced₂.freeCtx (by rw [same]; exact ctxLive) unreferenced₂
  | noFd none => exact absurd none keeps
  | done first second third fourth =>
      rcases referenced.kzalloc first with ⟨referenced₁, unreferenced₁, ctxLive⟩
      rcases referenced₁.allocMem unreferenced₁ second with ⟨referenced₂, _, same⟩
      exact referenced₂.install (by rw [same]; exact ctxLive) third fourth

theorem Process.LifetimeEffect.referenced {op : LifetimeOp}
    (effect : LifetimeEffect p task op p' task') (referenced : Referenced p)
    (fieldLive : forall ctx, task.autoLock = some ctx -> p.ctxs.live ctx = true)
    (keeps : KeepsReferenced p task op) : Referenced p' := by
  cases effect with
  | creates effect => exact effect.referenced referenced keeps
  | releases lets =>
      cases holds : task.autoLock with
      | none => exact referenced
      | some ctx =>
          have unreferenced : Unreferenced p ctx := by
            rcases lets with rfl | rfl <;> exact keeps ctx holds
          exact referenced.freeCtx (fieldLive ctx holds) unreferenced
  | views _ views => exact referenced.views views

theorem isLive_freeCtx (ctxLive : p.ctxs.live ctx = true) :
    (p.freeCtx ctx).ctxs.live ctx = false := by
  simp only [Process.freeCtx, Heap.touch_of_live ctxLive]
  rw [Heap.free_live ctxLive, Function.update_self]

/-- A step that leaves no open file behind met the condition. -/
theorem Process.LifetimeEffect.keeps {op : LifetimeOp}
    (effect : LifetimeEffect p task op p' task') (referenced : Referenced p)
    (fieldLive : forall ctx, task.autoLock = some ctx -> p.ctxs.live ctx = true)
    (safe : forall file, p'.IsOpen file -> p'.ctxs.live (p'.privateData file) = true) :
    KeepsReferenced p task op := by
  cases effect with
  | @creates failure ctx page file fd _ _ effect =>
      rcases failure with _ | _ | _ | err | err <;> try exact trivial
      cases effect with
      | refused why => exact why.resolve_right nofun
      | @noFd p₁ p₂ p₃ _ _ first second third =>
          -- The file that is left behind refers to the context.
          rcases referenced.kzalloc first with ⟨referenced₁, unreferenced, ctxLive⟩
          rcases referenced₁.allocMem unreferenced second with ⟨_, _, same⟩
          rcases Process.getFile_eq_some third with ⟨_, after⟩
          have refers : p₃.privateData file = ctx := by
            rw [after]
            exact Function.update_self ..
          have pending : file ∈ p₃.uninstalled := by
            rw [after]
            exact List.mem_cons_self
          have ctxLive₃ : p₃.ctxs.live ctx = true := by
            rw [after, same]
            exact ctxLive
          have live : (p₃.freeCtx ctx).ctxs.live (p₃.privateData file) = true :=
            safe file (Or.inl pending)
          rw [refers, isLive_freeCtx ctxLive₃] at live
          cases live
  | releases lets =>
      have unreferenced : forall ctx, task.autoLock = some ctx -> Unreferenced p ctx := by
        rintro ctx holds file opened rfl
        rw [holds] at safe
        have live := safe file opened
        have dead := isLive_freeCtx (fieldLive _ holds)
        exact absurd (live.symm.trans dead) (by decide)
      rcases lets with rfl | rfl <;> exact unreferenced
  | @views op notFree =>
      cases op <;> first
        | exact trivial
        | cases notFree

end referenced

/-! ## Runs -/

section runs

variable {Tid : Type}

/-- No context that an open file or the field of a live task refers to has been
freed, and no page that is mapped. -/
def Process.Kept (s : Machine Tid Process Task) : Prop :=
  (forall file, s.shared.IsOpen file ->
      s.shared.ctxs.live (s.shared.privateData file) = true) ∧
    (forall t ctx, (s.thread t).state = .alive -> (s.thread t).autoLock = some ctx ->
      s.shared.ctxs.live ctx = true) ∧
    forall vma page file, (vma, some page, file) ∈ s.shared.vmas -> s.shared.pages.live page = true

/-- Nothing has been freed that was not live. -/
def Process.FreedOnce (s : Machine Tid Process Task) : Prop :=
  (forall ctx, .doubleFree ctx ∉ s.shared.ctxs.faults) ∧
    forall page, .doubleFree page ∉ s.shared.pages.faults

/-- Runs that keep in every state what is referred to. -/
def kept : TransitionSystem.Guard (Machine Tid Process Task) (LifetimeLabel Tid) :=
  fun _ _ _ s' => Process.Kept s'

/-- Runs whose steps meet the condition. -/
def keepsReferenced : TransitionSystem.Guard (Machine Tid Process Task) (LifetimeLabel Tid) :=
  fun _ s label _ => KeepsReferenced s.shared (s.thread label.1) label.2.action

def fields (s : Machine Tid Process Task) : Tid -> Option CtxAddr :=
  fun t => (s.thread t).autoLock

variable [DecidableEq Tid]

theorem fields_update (s : Machine Tid Process Task) (p' : Process) (t : Tid) (task' : Task) :
    fields ⟨p', Function.update s.thread t task'⟩ =
      Function.update (fields s) t task'.autoLock :=
  Function.comp_update Task.autoLock s.thread t task'

theorem owned_of_run {guard : TransitionSystem.Guard (Machine Tid Process Task) (LifetimeLabel Tid)}
    {trace : List (LifetimeLabel Tid)} {s : Machine Tid Process Task}
    (run : (lifetimeSystem Tid).Run guard trace s) :
    Owned s.shared.ctxs s.shared.pages (fields s) none := by
  refine run.invariant (fun _ s => Owned s.shared.ctxs s.shared.pages (fields s) none) ?_ ?_
  · rintro s ⟨first, words, contents, privateData, shared, isFirst, others⟩
    have noField : forall t ctx, fields s t ≠ some ctx := by
      intro t ctx holds
      by_cases same : t = first
      · rw [fields, same, isFirst] at holds
        cases holds
      · rw [fields, others t same] at holds
        cases holds
    rw [shared]
    exact ⟨fun t ctx holds => absurd holds (noField t ctx),
      fun t _ ctx holds => absurd holds (noField t ctx), nofun, fun _ _ _ => nofun, nofun, nofun,
      fun _ => List.not_mem_nil, fun _ => List.not_mem_nil⟩
  · intro _ s label s' owned moved _
    rcases Program.recorded_next moved with ⟨p', stepped, _, rfl⟩
    rw [fields_update]
    exact (Process.step_lifetimeEffect stepped).owned owned rfl

theorem referenced_step {trace : List (LifetimeLabel Tid)} {s s' : Machine Tid Process Task}
    {guard : TransitionSystem.Guard (Machine Tid Process Task) (LifetimeLabel Tid)}
    {label : LifetimeLabel Tid} (run : (lifetimeSystem Tid).Run guard trace s)
    (referenced : Referenced s.shared) (moved : (lifetimeSystem Tid).next s label s')
    (keeps : keepsReferenced trace s label s') : Referenced s'.shared := by
  rcases Program.recorded_next moved with ⟨p', stepped, _, rfl⟩
  exact (Process.step_lifetimeEffect stepped).referenced referenced
    ((owned_of_run run).live label.1) keeps

theorem keeps_of_kept {trace : List (LifetimeLabel Tid)} {s s' : Machine Tid Process Task}
    {guard : TransitionSystem.Guard (Machine Tid Process Task) (LifetimeLabel Tid)}
    {label : LifetimeLabel Tid} (run : (lifetimeSystem Tid).Run guard trace s)
    (referenced : Referenced s.shared) (moved : (lifetimeSystem Tid).next s label s')
    (safe : Process.Kept s') : keepsReferenced trace s label s' := by
  rcases Program.recorded_next moved with ⟨p', stepped, _, rfl⟩
  exact (Process.step_lifetimeEffect stepped).keeps referenced
    ((owned_of_run run).live label.1) safe.1

omit [DecidableEq Tid] in
theorem kept_of_referenced {s : Machine Tid Process Task}
    (owned : Owned s.shared.ctxs s.shared.pages (fields s) none)
    (referenced : Referenced s.shared) : Process.Kept s := by
  refine ⟨referenced.files, fun t ctx _ holds => owned.live t ctx holds, ?_⟩
  intro vma page file member
  have live := referenced.files file (Or.inr (Or.inr ⟨vma, some page, member⟩))
  rcases owned.page _ live with ⟨page', holds, pageLive⟩
  rw [← referenced.mapped vma (some page) file member] at holds
  rw [Option.some.inj holds]
  exact pageLive

theorem referenced_of_run
    {guard : TransitionSystem.Guard (Machine Tid Process Task) (LifetimeLabel Tid)}
    (keeps : forall trace s label s', (lifetimeSystem Tid).Run guard trace s ->
      Referenced s.shared -> (lifetimeSystem Tid).next s label s' -> guard trace s label s' ->
        keepsReferenced trace s label s')
    {trace : List (LifetimeLabel Tid)} {s : Machine Tid Process Task}
    (run : (lifetimeSystem Tid).Run guard trace s) : Referenced s.shared := by
  induction run with
  | start initial =>
      rcases initial with ⟨first, words, contents, privateData, shared, _, _⟩
      rw [shared]
      refine ⟨fun file opened => ?_, fun _ _ _ => nofun⟩
      simp [Process.IsOpen] at opened
  | step run moved allowed inductionHypothesis =>
      exact referenced_step run inductionHypothesis moved
        (keeps _ _ _ _ run inductionHypothesis moved allowed)

/-- No run frees a context or a page twice.  A run never frees what is still
referred to exactly if all of its steps meet the condition. -/
theorem freed_once_and_kept_iff (trace : List (LifetimeLabel Tid))
    (s : Machine Tid Process Task) :
    ((lifetimeSystem Tid).Run TransitionSystem.unguarded trace s -> Process.FreedOnce s) ∧
      ((lifetimeSystem Tid).Run kept trace s <->
        (lifetimeSystem Tid).Run keepsReferenced trace s) := by
  refine ⟨fun run => ?_, ?_, ?_⟩
  · have owned := owned_of_run run
    exact ⟨owned.ctxsOnce, owned.pagesOnce⟩
  · intro run
    refine run.transfer fun trace s label s' before moved safe => ?_
    refine keeps_of_kept before (referenced_of_run ?_ before) moved safe
    exact fun _ _ _ _ run referenced moved safe => keeps_of_kept run referenced moved safe
  · intro run
    refine run.transfer fun trace s label s' before moved keeps => ?_
    have referenced := referenced_of_run (fun _ _ _ _ _ _ _ keeps => keeps) before
    exact kept_of_referenced (owned_of_run (before.step moved keeps))
      (referenced_step before referenced moved keeps)

end runs

/-! ## Two threads -/

namespace TwoThreads

/-- The first thread has been born, the second has not. -/
def born : Machine Bool Process Task where
  shared := ⟨1, .empty fun _ => none, .empty fun _ => (), fun _ => 0, [], [], []⟩
  thread := fun t => ⟨if t then .unborn else .alive, none⟩

theorem born_startsWith : startsWith born :=
  ⟨false, _, _, _, rfl, rfl, by decide⟩

def played (schedule : List (Bool × LifetimeOp)) :
    Machine Bool Process Task × List (LifetimeLabel Bool) :=
  (contextLifetime Bool).recorded.play schedule born

/-- A context with all that may happen to it, destroyed at the end, and another one. -/
def wholeLife : List (Bool × LifetimeOp) :=
  [(true, .clone), (false, .create none 0 0 0 3), (false, .poll 3), (true, .mmap 3 0 4096 none 0),
    (true, .dup 3 4), (true, .close 3), (true, .munmap 0), (false, .close 4), (false, .destroy),
    (true, .create none 0 0 0 3), (true, .close 3), (true, .exit), (true, .putTaskStruct)]

/-- A run after which something has been freed that is still referred to. -/
def FreesTooEarly (schedule : List (Bool × LifetimeOp)) : Prop :=
  (lifetimeSystem Bool).Run TransitionSystem.unguarded (played schedule).2 (played schedule).1 ∧
    ¬Process.Kept (played schedule).1

end TwoThreads

open TwoThreads in
theorem freed_once_and_kept_iff_wholeLife :
    (lifetimeSystem Bool).Run kept (played wholeLife).2 (played wholeLife).1 :=
  (freed_once_and_kept_iff _ _).2.mpr
    (Program.run_play_decided born_startsWith wholeLife (by decide))

open TwoThreads in
/-- The file is open when its task destroys the context; a mapping outlives the
descriptor and the context; the thread that created the context exits and the
others go on; `create` finds no descriptor. -/
theorem frees_too_early :
    FreesTooEarly [(false, .create none 0 0 0 3), (false, .destroy)] ∧
      FreesTooEarly [(false, .create none 0 0 0 3), (false, .mmap 3 0 4096 none 0),
        (false, .close 3), (false, .destroy)] ∧
      FreesTooEarly [(true, .clone), (true, .create none 0 0 0 3), (true, .exit),
        (true, .putTaskStruct)] ∧
      FreesTooEarly [(false, .create (some (.noFd (-24))) 0 0 0 3)] := by
  refine ⟨⟨?_, fun kept => ?_⟩, ⟨?_, fun kept => ?_⟩, ⟨?_, fun kept => ?_⟩,
    ⟨?_, fun kept => ?_⟩⟩
  · exact Program.run_play born_startsWith _ (by decide)
  · exact absurd (kept.1 0 (by decide)) (by decide)
  · exact Program.run_play born_startsWith _ (by decide)
  · exact absurd (kept.2.2 0 0 0 (by decide)) (by decide)
  · exact Program.run_play born_startsWith _ (by decide)
  · exact absurd (kept.1 0 (by decide)) (by decide)
  · exact Program.run_play born_startsWith _ (by decide)
  · exact absurd (kept.1 0 (by decide)) (by decide)

end Kernel
end Autolock
