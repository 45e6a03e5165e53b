import Autolock.UserLocks.Aepfl
import Autolock.UserLocks.Arming

namespace Autolock
namespace UserLocks

open Concurrency

/-!
# When the waiters of the array-queue lock may run

A waiter watches the flag of its slot and is meant to be schedulable as soon
as the flag is unlocked.  As with the simple ticket lock the address is stored
first, so that a flag that is unlocked before the value and the polarity have
followed meets what an earlier wait has left in the page.
-/

namespace AepflPc

/-- The slot whose flag the thread waits for, until it has disarmed its page. -/
def slot? : AepflPc -> Option AepflSlot
  | .firstLoad slot | .setWatchMem slot | .setWatchFor slot | .setWatchNeq slot | .loadHead slot
  | .nearHead slot | .pausing slot _ | .yielding slot | .disarm slot => some slot
  | _ => none

def armStage : AepflPc -> ArmStage
  | .setWatchFor _ => .addressed
  | .setWatchNeq _ => .expecting
  | .loadHead _ | .nearHead _ | .pausing _ _ | .yielding _ | .disarm _ => .armed
  | _ => .disarmed

/-- Inside `lock`: the function has been called and has not returned. -/
def inLock (pc : AepflPc) : Bool :=
  pc == .fetchAddTail || pc.slot?.isSome

end AepflPc

namespace Aepfl

variable {Tid : Type}

def watching : Watching AepflThread AepflSlot where
  page := AepflThread.page
  watch := fun l => l.pc.slot?.map fun slot => (slot, AepflFlag.unlocked, l.pc.armStage)

/-- The flag of the thread's slot is unlocked, or the thread holds the lock or is releasing it. -/
def Entitled (lock : AepflLock) (l : AepflThread) : Prop :=
  (exists slot, l.pc.slot? = some slot ∧ lock.flags slot = AepflFlag.unlocked) ∨
    l.pc.holdsLock = true ∨ l.pc.inUnlock = true

/-- The kernel holds back no thread whose turn it is. -/
def Runnable (s : Machine Tid AepflLock AepflThread) : Prop :=
  forall t, Entitled s.shared (s.thread t) -> (s.thread t).page.held s.shared.flags = false

/-- What an earlier wait has left in the page does not hold the owner of the slot back. -/
def HarmlessAt (slot : AepflSlot) (l : AepflThread) : Prop :=
  l.pc.slot? = some slot -> l.page.Harmless AepflFlag.unlocked l.pc.armStage

/-- A store to the page of a thread whose flag is unlocked leaves it harmless. -/
def ArmsHarmlessly (lock : AepflLock) (l : AepflThread) : Prop :=
  match l.pc with
  | .setWatchMem slot =>
      lock.flags slot = AepflFlag.unlocked -> l.page.Harmless AepflFlag.unlocked .addressed
  | .setWatchFor slot =>
      lock.flags slot = AepflFlag.unlocked -> l.page.Harmless AepflFlag.unlocked .expecting
  | _ => True

/-- The condition on a step: if it unlocks a flag, or arms a page further
whose flag is unlocked, then nothing that an earlier wait has left in the page
holds the owner of the slot back. -/
def GrantsHarmlessly (s : Machine Tid AepflLock AepflThread) (t : Tid) : Prop :=
  match (s.thread t).pc with
  | .storeUnlocked slot => forall u, HarmlessAt slot (s.thread u)
  | _ => ArmsHarmlessly s.shared (s.thread t)

/-- Runs in which every step grants harmlessly. -/
def harmlessly : TransitionSystem.Guard (Machine Tid AepflLock AepflThread) (Tid × AepflEvent) :=
  fun _ s label _ => GrantsHarmlessly s label.1

/-! ## One step -/

theorem watch_eq {l : AepflThread} {slot : AepflSlot} (ofSlot : l.pc.slot? = some slot) :
    watching.watch l = some (slot, AepflFlag.unlocked, l.pc.armStage) := by
  simp only [watching, ofSlot, Option.map_some]

theorem watch_eq_none {l : AepflThread} (noSlot : l.pc.slot? = none) :
    watching.watch l = none := by
  simp only [watching, noSlot, Option.map_none]

/-- A holder is disarmed, and a waiter whose flag is unlocked may run if its page is harmless. -/
theorem held_iff {lock : AepflLock} {l : AepflThread} (ok : watching.PageOk l) :
    (Entitled lock l -> l.page.held lock.flags = false) <-> watching.HarmlessIn lock.flags l := by
  rw [← ok.held_iff]
  constructor
  · rintro runnable ⟨p, v, stage, waits, granted⟩
    rcases Option.map_eq_some_iff.mp waits with ⟨slot, ofSlot, same⟩
    cases same
    exact runnable (Or.inl ⟨_, ofSlot, granted⟩)
  · rintro runnable (⟨slot, ofSlot, granted⟩ | inside)
    · exact runnable ⟨_, _, _, watch_eq ofSlot, granted⟩
    · apply KernelAutolockAbi.held_disarmed
      apply ok.disarmed
      apply watch_eq_none
      revert inside
      cases l.pc <;> first | exact fun _ => rfl | exact fun inside => nomatch inside

theorem runnable_iff {s : Machine Tid AepflLock AepflThread}
    (pages : forall t, watching.PageOk (s.thread t)) :
    Runnable s <-> forall t, watching.HarmlessIn s.shared.flags (s.thread t) :=
  forall_congr' fun t => held_iff (pages t)

/-- Unlocking a flag can only do harm to the owner of its slot. -/
theorem harmlessIn_unlock {lock : AepflLock} {l : AepflThread} {slot : AepflSlot}
    (harmless : watching.HarmlessIn lock.flags l) :
    watching.HarmlessIn (Function.update lock.flags slot AepflFlag.unlocked) l <->
      HarmlessAt slot l := by
  constructor
  · intro harmless' ofSlot
    exact harmless' _ _ _ (watch_eq ofSlot) (Function.update_self ..)
  · intro mine p v stage waits granted
    by_cases same : p = slot
    · rcases Option.map_eq_some_iff.mp waits with ⟨slot', ofSlot, same'⟩
      cases same'
      exact mine (ofSlot.trans (congrArg some same))
    · rw [Function.update_of_ne same] at granted
      exact harmless p v stage waits granted

/-- Locking a flag does no harm. -/
theorem harmlessIn_lock {lock : AepflLock} {l : AepflThread} (slot : AepflSlot)
    (harmless : watching.HarmlessIn lock.flags l) :
    watching.HarmlessIn (Function.update lock.flags slot AepflFlag.locked) l := by
  intro p v stage waits granted
  by_cases same : p = slot
  · subst same
    rcases Option.map_eq_some_iff.mp waits with ⟨slot', _, same'⟩
    cases same'
    rw [Function.update_self] at granted
    cases granted
  · rw [Function.update_of_ne same] at granted
    exact harmless p v stage waits granted

/-- The kinds of step, as far as the flags and the page of its thread are concerned. -/
inductive ArmEffect (lock lock' : AepflLock) (l l' : AepflThread) : Prop
  | unlocks (slot : AepflSlot) (pc : l.pc = .storeUnlocked slot)
      (flags : lock'.flags = Function.update lock.flags slot AepflFlag.unlocked)
      (idle : l'.pc.slot? = none)
  | locks (slot : AepflSlot) (pc : l.pc = .storeLocked slot)
      (flags : lock'.flags = Function.update lock.flags slot AepflFlag.locked)
      (idle : l'.pc.slot? = none)
  | arms (pc : forall slot, l.pc ≠ .storeUnlocked slot) (flags : lock'.flags = lock.flags)
      (own : watching.HarmlessIn lock.flags l' <-> ArmsHarmlessly lock l)

/-- A step after which the thread does not wait, or its page is as good as new. -/
theorem ArmEffect.quiet {lock lock' : AepflLock} {l l' : AepflThread}
    (pc : forall slot, l.pc ≠ .storeUnlocked slot) (flags : lock'.flags = lock.flags)
    (noStore : ArmsHarmlessly lock l)
    (whole : l'.pc.armStage = .disarmed ∨ l'.pc.armStage = .armed) :
    ArmEffect lock lock' l l' := by
  refine .arms pc flags (iff_of_true ?_ noStore)
  cases ofSlot : l'.pc.slot? with
  | none => exact Watching.harmlessIn_of_none (watch_eq_none ofSlot)
  | some slot => exact Watching.harmlessIn_of_stage (watch_eq ofSlot) whole

theorem recheck_arms {lock lock' : AepflLock} {l l' : AepflThread} {event : AepflEvent}
    {slot : AepflSlot} {whenLocked : AepflPc}
    (stepped : recheck true lock l slot whenLocked = some (lock', l', event))
    (pc : forall slot', l.pc ≠ .storeUnlocked slot') (noStore : ArmsHarmlessly lock l)
    (armed : l.page.At slot AepflFlag.unlocked .armed)
    (sameSlot : whenLocked.slot? = some slot) (whenArmed : whenLocked.armStage = .armed) :
    watching.PageOk l' ∧ ArmEffect lock lock' l l' := by
  unfold recheck at stepped
  split at stepped <;> cases stepped
  · exact ⟨armed, .quiet pc rfl noStore (Or.inr rfl)⟩
  · refine ⟨?_, .quiet pc rfl noStore (Or.inr whenArmed)⟩
    rw [Watching.PageOk, watch_eq sameSlot]
    exact whenArmed ▸ armed

theorem step_effect_arms {t : Tid} {action : AepflAction} {lock lock' : AepflLock}
    {l l' : AepflThread} {event : AepflEvent}
    (stepped : step true t action lock l = some (lock', l', event)) (ok : watching.PageOk l) :
    watching.PageOk l' ∧ ArmEffect lock lock' l l' := by
  rcases l with ⟨pc, page⟩
  cases pc <;> cases action <;> simp only [step, reduceCtorEq] at stepped
  case storeUnlocked.run slot =>
    cases stepped
    exact ⟨ok, .unlocks slot rfl rfl rfl⟩
  case storeLocked.run slot =>
    cases stepped
    exact ⟨ok, .locks slot rfl rfl rfl⟩
  -- The first two stores to the page are the ones that may do harm.
  case setWatchMem.run slot =>
    cases stepped
    have own : watching.HarmlessIn lock.flags
        ⟨.setWatchFor slot, page.autolockSetKernelWatchMem (some slot)⟩ <-> _ :=
      Watching.harmlessIn_iff (watch_eq rfl)
    exact ⟨rfl, .arms nofun rfl own⟩
  case setWatchFor.run slot =>
    cases stepped
    have own : watching.HarmlessIn lock.flags
        ⟨.setWatchNeq slot, page.autolockSetKernelWatchFor AepflFlag.unlocked⟩ <-> _ :=
      Watching.harmlessIn_iff (watch_eq rfl)
    exact ⟨KernelAutolockAbi.At.expect ok, .arms nofun rfl own⟩
  case setWatchNeq.run slot =>
    cases stepped
    exact ⟨KernelAutolockAbi.At.arm ok, .quiet nofun rfl trivial (Or.inr rfl)⟩
  case tryLoadHead.run curTail =>
    split at stepped <;> cases stepped <;> exact ⟨ok, .quiet nofun rfl trivial (Or.inl rfl)⟩
  case tryCompareExchange.run curTail =>
    split at stepped <;> cases stepped <;> exact ⟨ok, .quiet nofun rfl trivial (Or.inl rfl)⟩
  case firstLoad.run slot =>
    split at stepped <;> cases stepped <;> exact ⟨ok, .quiet nofun rfl trivial (Or.inl rfl)⟩
  case loadHead.run slot =>
    split at stepped <;> cases stepped <;> exact ⟨ok, .quiet nofun rfl trivial (Or.inr rfl)⟩
  case nearHead.run slot => exact recheck_arms stepped nofun trivial ok rfl rfl
  case pausing.run slot tmpWaitIters =>
    cases next : lockWaitNext tmpWaitIters <;> rw [next] at stepped <;>
      exact recheck_arms stepped nofun trivial ok rfl rfl
  case yielding.run slot => exact recheck_arms stepped nofun trivial ok rfl rfl
  case disarm.run slot =>
    cases stepped
    exact ⟨rfl, .quiet nofun rfl trivial (Or.inl rfl)⟩
  -- Every other step moves a disarmed thread.
  all_goals cases stepped
  all_goals exact ⟨ok, .quiet nofun rfl trivial (Or.inl rfl)⟩

/-- From a state in which whoever is entitled may run, a step leads to such a
state exactly if it grants harmlessly. -/
theorem next_runnable_iff [DecidableEq Tid] {s s' : Machine Tid AepflLock AepflThread}
    {label : Tid × AepflEvent} (moved : (system true).next s label s')
    (pages : forall t, watching.PageOk (s.thread t)) (runnable : Runnable s) :
    (forall t, watching.PageOk (s'.thread t)) ∧ (Runnable s' <-> GrantsHarmlessly s label.1) := by
  rcases Program.system_next moved with ⟨action, lock', l', stepped, rfl⟩
  rcases step_effect_arms (show Aepfl.step true label.1 _ _ _ = _ from stepped) (pages label.1)
    with ⟨ok', effect⟩
  have pages' : forall u, watching.PageOk (Function.update s.thread label.1 l' u) :=
    (Function.forall_update_iff s.thread fun _ l => watching.PageOk l).mpr
      ⟨ok', fun u _ => pages u⟩
  have harmless := (runnable_iff pages).mp runnable
  refine ⟨pages', (runnable_iff pages').trans ?_⟩
  rw [Function.forall_update_iff s.thread fun _ l => watching.HarmlessIn lock'.flags l]
  unfold GrantsHarmlessly
  cases effect with
  | unlocks slot pc flags idle =>
      rw [pc, flags, and_iff_right (Watching.harmlessIn_of_none (watch_eq_none idle))]
      constructor
      · intro others u
        by_cases itself : u = label.1
        · subst itself
          rw [HarmlessAt, pc]
          exact nofun
        · exact (harmlessIn_unlock (harmless u)).mp (others u itself)
      · exact fun all u _ => (harmlessIn_unlock (harmless u)).mpr (all u)
  | locks slot pc flags idle =>
      rw [pc, flags]
      exact iff_of_true ⟨Watching.harmlessIn_of_none (watch_eq_none idle),
        fun u _ => harmlessIn_lock slot (harmless u)⟩ (by simp only [ArmsHarmlessly, pc])
  | arms pc flags own =>
      rw [flags, and_iff_left fun u _ => harmless u, own]
      cases at_pc : (s.thread label.1).pc <;> first | rfl | exact absurd at_pc (pc _)

/-! ## Every run -/

/-- Nobody waits and every page is disarmed. -/
theorem init_runnable {s : Machine Tid AepflLock AepflThread} (initial : init s) :
    (forall t, watching.PageOk (s.thread t)) ∧ Runnable s := by
  rcases initial with ⟨_, outside⟩
  have idle : forall t, watching.watch (s.thread t) = none := by
    intro t
    apply watch_eq_none
    rw [(outside t).1]
    rfl
  have pages : forall t, watching.PageOk (s.thread t) := by
    intro t
    rw [Watching.PageOk, idle t]
    exact (outside t).2
  exact ⟨pages, (runnable_iff pages).mpr fun t => Watching.harmlessIn_of_none (idle t)⟩

/-- In every run whose steps grant harmlessly no thread whose flag is unlocked,
and no thread that holds the lock or is releasing it, is ever held, and a
thread is disarmed whenever it is outside `lock`; the first step that does not
grant harmlessly holds one. -/
theorem unlocked_runnable_iff [DecidableEq Tid] {trace : List (Tid × AepflEvent)}
    {s : Machine Tid AepflLock AepflThread} (run : (system true).Run harmlessly trace s) :
    Runnable s ∧ (forall t, (s.thread t).pc.inLock = false -> (s.thread t).page.watchMem = none) ∧
      forall label s', (system true).next s label s' ->
        (Runnable s' <-> GrantsHarmlessly s label.1) := by
  rcases run.exact (fun _ => init_runnable) fun _ _ _ _ pages runnable moved =>
    next_runnable_iff moved pages runnable with ⟨⟨pages, runnable⟩, next_iff⟩
  refine ⟨runnable, fun t returned => ?_, next_iff⟩
  rw [AepflPc.inLock, Bool.or_eq_false_iff, Option.isSome_eq_false_iff,
    Option.isNone_iff_eq_none] at returned
  exact (pages t).disarmed (watch_eq_none returned.2)

instance (slot : AepflSlot) (l : AepflThread) : Decidable (HarmlessAt slot l) :=
  inferInstanceAs (Decidable (_ -> _))

instance (s : Machine Bool AepflLock AepflThread) (t : Bool) : Decidable (GrantsHarmlessly s t) := by
  unfold GrantsHarmlessly ArmsHarmlessly
  split
  · infer_instance
  · split <;> infer_instance

/-- One thread holds the lock while the other makes some of the stores that
arm its page, which is fresh. -/
def armBehindHolder (stores : Nat) : List (Bool × AepflAction) :=
  [(false, .callLock), (false, .run), (false, .run), (true, .callLock), (true, .run), (true, .run)] ++
    List.replicate stores (true, .run) ++
    [(false, .callUnlock), (false, .run), (false, .run), (false, .run)]

/-- The page is fully armed when the flag is unlocked. -/
theorem unlocked_runnable_iff_armed :
    let s := ((program Bool true).play (armBehindHolder 3) (fresh Bool)).1
    Entitled s.shared (s.thread true) ∧ Runnable s :=
  ⟨Or.inl ⟨1, by decide, by decide⟩, (unlocked_runnable_iff
    (Program.run_play_decided fresh_init (armBehindHolder 3) (by decide))).1⟩

/-- Two threads; only the address has been stored when the flag is unlocked. -/
theorem unlocked_held_halfArmed :
    exists trace, exists s : Machine Bool AepflLock AepflThread,
      (system true).Run (fun _ _ _ s' => fits s') trace s ∧
        (s.thread true).pc.slot? = some 1 ∧ s.shared.flags 1 = AepflFlag.unlocked ∧
        (s.thread true).page.held s.shared.flags = true :=
  ⟨_, _, (Program.run_play fresh_init (armBehindHolder 1) (by decide)).restrict
    fun _ _ _ s' _ => fits_of_two s', by decide, by decide, by decide⟩

end Aepfl

end UserLocks
end Autolock
