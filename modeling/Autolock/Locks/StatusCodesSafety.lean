import Autolock.Concurrency.Exclusive
import Autolock.Locks.StatusCodes

namespace Autolock
namespace Locks

open Concurrency UserLocks

/-!
# Which status codes are truthful

What `trylock` and `lock` return is, in every run.  What `unlock` returns is,
in the runs without a failed system call, exactly if no wake-up finds a
sleeper: waking one is reported as a failure.
-/

/-! ## `I_user_lock_base` -/

namespace BaseStatus

variable {Tid : Type} [DecidableEq Tid] {cfg : LockBaseConfig} {t : Tid}
  {lock lock' : UserLockBase Tid} {l l' : LockBaseThread} {event : LockBaseEvent}
  {action : LockBaseAction Tid} {s s' : Machine Tid (UserLockBase Tid) LockBaseThread}
  {label : Tid × StepRecord LockBaseThread (LockBaseAction Tid ⊕ Int) LockBaseEvent}
  {trace : List (Tid × StepRecord LockBaseThread (LockBaseAction Tid ⊕ Int) LockBaseEvent)}

/-- A step is one of the lock or a wake-up that fails. -/
inductive Moves (cfg : LockBaseConfig) (s : Machine Tid (UserLockBase Tid) LockBaseThread) :
    Tid × StepRecord LockBaseThread (LockBaseAction Tid ⊕ Int) LockBaseEvent ->
      Machine Tid (UserLockBase Tid) LockBaseThread -> Prop
  | steps (t : Tid) (action : LockBaseAction Tid) (lock' : UserLockBase Tid) (l' : LockBaseThread)
      (event : LockBaseEvent)
      (stepped : LockBase.step cfg t action s.shared (s.thread t) = some (lock', l', event)) :
      Moves cfg s (t, ⟨s.thread t, .inl action, l', event⟩)
        ⟨lock', Function.update s.thread t l'⟩
  | fails (t : Tid) (result : Int) (here : (s.thread t).pc = .unlockWake) (negative : result < 0) :
      Moves cfg s
        (t, ⟨s.thread t, .inr result, { s.thread t with pc := .outside }, .unlockReturned iFailure⟩)
        ⟨s.shared, Function.update s.thread t { s.thread t with pc := .outside }⟩

theorem moves_of_next (moved : (system cfg).next s label s') : Moves cfg s label s' := by
  rcases label with ⟨t, before, action, l', event⟩
  rcases Program.recorded_next moved with ⟨lock', stepped, same, rfl⟩
  change before = s.thread t at same
  subst same
  cases action with
  | inl action => exact .steps t action lock' l' event stepped
  | inr result =>
      simp only [Program.extend, failWake] at stepped
      split at stepped
      · next can =>
          cases stepped
          rw [if_pos (Int.ne_of_lt can.2)]
          exact .fails t result can.1 can.2
      · cases stepped

/-! ### Who has the lock -/

structure Held (cfg : LockBaseConfig) (s : Machine Tid (UserLockBase Tid) LockBaseThread) : Prop where
  word : s.shared.mem = cfg.unlocked ∨ s.shared.mem = cfg.locked
  taken : forall t, (s.thread t).pc.holdsLock = true -> s.shared.mem = cfg.locked
  unique : Exclusive (fun l : LockBaseThread => l.pc.holdsLock = true) s.thread

omit [DecidableEq Tid] in
theorem Held.nobody (held : Held cfg s) (free : s.shared.mem ≠ cfg.locked) (u : Tid) :
    ¬(s.thread u).pc.holdsLock = true :=
  fun holds => free (held.taken u holds)

theorem Held.effect (held : Held cfg s)
    (effect : LockBase.StepEffect cfg t s.shared lock' (s.thread t) l' event) :
    Held cfg ⟨lock', Function.update s.thread t l'⟩ := by
  cases effect with
  | silent word _ same =>
      refine ⟨by rw [word]; exact held.word, fun u holds => ?_,
        held.unique.keep fun holds => same ▸ holds⟩
      exact word.trans (held.taken u (@of_update _ _ (fun l : LockBaseThread => l.pc.holdsLock = true)
        _ _ _ _ (fun holds => same ▸ holds) _ holds))
  | acquires free word _ _ _ =>
      exact ⟨.inr word, fun _ _ => word, .enter (held.nobody free)⟩
  | releases word _ before after =>
      have gone : forall u, ¬(Function.update s.thread t l' u).pc.holdsLock = true := by
        intro u holds
        by_cases itself : u = t
        · subst itself
          rw [Function.update_self, after] at holds
          cases holds
        · rw [Function.update_of_ne itself] at holds
          exact itself (held.unique u t holds before)
      exact ⟨.inl word, fun u holds => absurd holds (gone u),
        fun u _ holds _ => absurd holds (gone u)⟩

theorem Held.next (held : Held cfg s) (moves : Moves cfg s label s') : Held cfg s' := by
  cases moves with
  | steps t action lock' l' event stepped => exact held.effect (LockBase.step_effect stepped)
  | fails t result here _ =>
      have same : LockBasePc.holdsLock .outside = (s.thread t).pc.holdsLock := by
        rw [here]
        rfl
      exact held.effect (.silent rfl (rfl : LockBase.observe (t, .unlockReturned iFailure) = []) same)

/-! ### Statuses -/

omit [DecidableEq Tid] in
theorem unlocked_ne_locked : cfg.unlocked ≠ cfg.locked := by
  unfold LockBaseConfig.unlocked LockBaseConfig.locked
  split <;> decide

omit [DecidableEq Tid] in
theorem exchanges_iff : (view cfg).exchanges ⟨l, .inl action, l', event⟩ = true <->
    l.pc = .tryExchange .trylock ∧ action = .run := by
  rcases l with ⟨pc, page⟩
  cases pc with
  | tryExchange caller => cases caller <;> cases action <;> simp [view]
  | _ => simp [view]

/-- A step that is not the exchange of `trylock` returns no success from it. -/
theorem trylock_step (stepped : LockBase.step cfg t action lock l = some (lock', l', event)) :
    (view cfg).exchanges ⟨l, .inl action, l', event⟩ = true ∧ lock'.mem = cfg.locked ∧
        event = .trylockReturned (if lock.mem ≠ cfg.locked then iSuccess else iFailure) ∨
      (@view Tid cfg).exchanges ⟨l, .inl action, l', event⟩ = false ∧
        event ≠ .trylockReturned iSuccess := by
  by_cases exchanges : l.pc = .tryExchange .trylock ∧ action = .run
  · refine .inl ⟨exchanges_iff.mpr exchanges, ?_⟩
    rcases exchanges with ⟨here, rfl⟩
    simp only [LockBase.step, here] at stepped
    split at stepped
    · next free =>
        cases stepped
        exact ⟨rfl, by rw [if_pos free]; rfl⟩
    · next taken =>
        cases stepped
        exact ⟨rfl, by rw [if_neg taken]; rfl⟩
  · refine .inr ⟨Bool.eq_false_iff.mpr fun is => exchanges (exchanges_iff.mp is),
      fun returned => ?_⟩
    subst returned
    rcases l with ⟨pc, page⟩
    cases pc <;> cases action <;> simp only [LockBase.step, reduceCtorEq] at stepped
    case tryLoad.run caller =>
      split at stepped
      · cases stepped
      · cases caller <;> cases stepped
    case tryExchange.run caller =>
      cases caller with
      | trylock => exact exchanges ⟨rfl, rfl⟩
      | lock => split at stepped <;> cases stepped
    case unlockWake.wake woken =>
      cases woken <;> dsimp only at stepped <;> split at stepped <;> cases stepped
    all_goals try (split at stepped)
    all_goals cases stepped

theorem newHolder (held : Held cfg s) {ret : Int}
    (stepped : LockBase.step cfg t action s.shared (s.thread t) =
      some (lock', l', .lockReturned ret)) :
    (view cfg).NewHolder t s ⟨lock', Function.update s.thread t l'⟩ := by
  cases LockBase.step_effect stepped with
  | silent _ unseen _ => cases unseen
  | releases _ seen _ _ => cases seen
  | acquires free _ _ _ after =>
      refine ⟨fun u => Bool.eq_false_iff.mpr (held.nobody free u), ?_, fun u holds => ?_⟩
      · change (Function.update s.thread t l' t).pc.holdsLock = true
        rw [Function.update_self]
        exact after
      · by_contra different
        change (Function.update s.thread t l' u).pc.holdsLock = true at holds
        rw [Function.update_of_ne different] at holds
        exact held.nobody free u holds

theorem takesTruthfully (held : Held cfg s) (moves : Moves cfg s label s') :
    (view cfg).TakesTruthfully s label s' := by
  cases moves with
  | fails t result here negative =>
      have none : (@view Tid cfg).exchanges ⟨s.thread t, .inr result,
          { s.thread t with pc := .outside }, .unlockReturned iFailure⟩ = false := by
        unfold view
        dsimp only
        split
        · next isAction => cases isAction
        · rfl
      refine ⟨⟨nofun, fun exchanged => ?_⟩, fun exchanges => ?_, nofun⟩
      · rw [none] at exchanged
        cases exchanged.1
      · rw [none] at exchanges
        cases exchanges
  | steps t action lock' l' event stepped =>
      refine ⟨?_, fun exchanges => ?_, fun returned => ?_⟩
      · rcases trylock_step stepped with ⟨exchanges, locked, returns⟩ | ⟨no, other⟩
        · subst returns
          by_cases taken : s.shared.mem = cfg.locked
          · refine ⟨fun success => ?_, fun changed => ?_⟩
            · rw [if_neg (not_not.mpr taken)] at success
              cases success
            · exact absurd (changed.2.1.symm.trans taken) unlocked_ne_locked
          · rw [if_pos taken]
            exact ⟨fun _ => ⟨exchanges, held.word.resolve_right taken, locked⟩, fun _ => rfl⟩
        · refine ⟨fun success => ?_, fun changed => ?_⟩
          · cases event <;> first | cases success; exact absurd rfl other | cases success
          · rw [no] at changed
            cases changed.1
      · rcases trylock_step stepped with ⟨_, _, rfl⟩ | ⟨no, _⟩
        · rfl
        · rw [no] at exchanges
          cases exchanges
      · cases event <;> cases returned
        exact newHolder held stepped

/-- Only a wake-up makes `unlock` return anything but success. -/
theorem unlockReturn_step (stepped : LockBase.step cfg t action lock l = some (lock', l', event))
    (awake : l.pc ≠ .unlockWake) {ret : Int} (returned : unlockReturn cfg event = some ret) :
    ret = iSuccess := by
  rcases l with ⟨pc, page⟩
  cases pc <;> cases action <;> simp only [LockBase.step, reduceCtorEq] at stepped
  case tryLoad.run caller =>
    split at stepped
    · cases stepped
      cases returned
    · cases caller <;> cases stepped <;> cases returned
  case tryExchange.run caller =>
    cases caller <;> split at stepped <;> cases stepped <;> cases returned
  case unlockStore.run =>
    cases stepped
    simp only [unlockReturn] at returned
    split at returned
    · cases returned
    · cases returned
      rfl
  case unlockLoadWaiters.run =>
    split at stepped <;> cases stepped <;> cases returned
    rfl
  case unlockWake.wake => exact absurd rfl awake
  all_goals try (split at stepped)
  all_goals cases stepped
  all_goals cases returned

/-- `unlock` returns success from a wake-up exactly if nobody was asleep. -/
theorem wake_step {woken : Option Tid} (here : l.pc = .unlockWake)
    (stepped : LockBase.step cfg t (.wake woken) lock l = some (lock', l', event)) :
    exists ret, event = .unlockReturned ret ∧ (ret = iSuccess <-> lock.sleepers = []) := by
  rcases l with ⟨pc, page⟩
  change pc = .unlockWake at here
  subst here
  cases woken with
  | none =>
      simp only [LockBase.step] at stepped
      split at stepped
      · next nobody =>
          cases stepped
          exact ⟨iSuccess, rfl, iff_of_true rfl nobody⟩
      · cases stepped
  | some woken =>
      simp only [LockBase.step] at stepped
      split at stepped
      · next asleep =>
          cases stepped
          exact ⟨iFailure, rfl, iff_of_false (by decide) (List.ne_nil_of_mem asleep)⟩
      · cases stepped

theorem unlockSucceeds_step (moved : (system cfg).next s label s') (fine : ¬(view cfg).Fails label) :
    (view cfg).UnlockSucceeds label <-> (view cfg).FindsNobody s label := by
  cases moves_of_next moved with
  | fails t result here negative =>
      refine absurd ⟨result, ?_, negative⟩ fine
      change futexResult _ = _
      simp only [futexResult, here]
  | steps t action lock' l' event stepped =>
      by_cases waking : (s.thread t).pc = .unlockWake
      · cases action with
        | wake woken =>
            rcases wake_step waking stepped with ⟨ret, rfl, succeeds⟩
            have wakes : (@view Tid cfg).wakes ⟨s.thread t, .inl (.wake woken), l',
                .unlockReturned ret⟩ = true := by
              simp only [view, waking]
            exact ⟨fun success _ => succeeds.mp (success ret rfl), fun nobody ret' returned => by
              cases returned
              exact succeeds.mpr (nobody wakes)⟩
        | _ => simp only [LockBase.step, waking, reduceCtorEq] at stepped
      · refine iff_of_true (fun ret returned => unlockReturn_step stepped waking returned)
          fun wakes => absurd ?_ waking
        simp only [view] at wakes
        split at wakes
        · next here _ => exact here
        · next here _ => exact here
        · cases wakes

/-- `unlock` returns to its caller. -/
theorem outside_of_unlockReturned {ret : Int}
    (stepped : LockBase.step cfg t action lock l = some (lock', l', .unlockReturned ret)) :
    l'.pc = .outside := by
  rcases l with ⟨pc, page⟩
  cases pc <;> cases action <;> simp only [LockBase.step, reduceCtorEq] at stepped
  case tryLoad.run caller =>
    split at stepped
    · cases stepped
    · cases caller <;> cases stepped
  case tryExchange.run caller => cases caller <;> split at stepped <;> cases stepped
  case unlockWake.wake woken =>
    cases woken <;> dsimp only at stepped <;> split at stepped <;> cases stepped <;> rfl
  all_goals try (split at stepped)
  all_goals cases stepped
  all_goals rfl

theorem releasesWord (moves : Moves cfg s label s') : (view cfg).ReleasesWord s label s' := by
  cases moves with
  | fails t result here _ =>
      refine ⟨fun holds _ => ?_, fun _ => ?_⟩
      · change (s.thread t).pc.holdsLock = true at holds
        rw [here] at holds
        cases holds
      · change (Function.update s.thread t _ t).pc.holdsLock = false
        rw [Function.update_self]
        rfl
  | steps t action lock' l' event stepped =>
      have now : Function.update s.thread t l' t = l' := Function.update_self ..
      refine ⟨fun holds gone => ?_, fun returned => ?_⟩
      · change (s.thread t).pc.holdsLock = true at holds
        change (Function.update s.thread t l' t).pc.holdsLock = false at gone
        rw [now] at gone
        cases LockBase.step_effect stepped with
        | releases word _ _ _ => exact word
        | silent _ _ same => cases gone.symm.trans (same.trans holds)
        | acquires _ _ _ before _ => cases before.symm.trans holds
      · change (Function.update s.thread t l' t).pc.holdsLock = false
        rw [now]
        cases event with
        | unlockReturned ret =>
            rw [outside_of_unlockReturned stepped]
            rfl
        | unlocked =>
            cases LockBase.step_effect stepped with
            | releases _ _ _ after => exact after
            | silent _ unseen _ => cases unseen
            | acquires _ _ seen _ _ => cases seen
        | _ => cases returned

omit [DecidableEq Tid] in
theorem held_init (initial : LockBase.init cfg s) : Held cfg s := by
  have nobody : forall u, ¬(s.thread u).pc.holdsLock = true := by
    intro u holds
    rw [(initial.2 u).1] at holds
    cases holds
  exact ⟨.inl (by rw [initial.1]), fun u holds => absurd holds (nobody u),
    fun u _ holds _ => absurd holds (nobody u)⟩

theorem truthfulUntilWakeUp (cfg : LockBaseConfig) :
    (@view Tid cfg).TruthfulUntilWakeUp (system cfg) :=
  FutexLock.truthfulUntilWakeUp (fun _ initial => held_init initial)
    (fun _ _ _ held moved => held.next (moves_of_next moved))
    (fun _ _ _ held moved => takesTruthfully held (moves_of_next moved))
    (fun _ _ _ moved => releasesWord (moves_of_next moved))
    (fun _ _ _ moved fine => unlockSucceeds_step moved fine)

end BaseStatus

/-! ## `lock_ops` -/

namespace OpsStatus

open LockOps

variable {Tid : Type} [DecidableEq Tid] {cfg : LockOpsConfig} {t : Tid}
  {lock lock' : LockOpsBase Tid} {pc pc' : LockOpsPc} {event : LockOpsEvent}
  {action : LockOpsAction Tid} {s s' : Machine Tid (LockOpsBase Tid) LockOpsPc}
  {label : Tid × StepRecord LockOpsPc (LockOpsAction Tid ⊕ Int) LockOpsEvent}

/-- A step is one of the lock or a wake-up that fails. -/
inductive Moves (cfg : LockOpsConfig) (s : Machine Tid (LockOpsBase Tid) LockOpsPc) :
    Tid × StepRecord LockOpsPc (LockOpsAction Tid ⊕ Int) LockOpsEvent ->
      Machine Tid (LockOpsBase Tid) LockOpsPc -> Prop
  | steps (t : Tid) (action : LockOpsAction Tid) (lock' : LockOpsBase Tid) (pc' : LockOpsPc)
      (event : LockOpsEvent)
      (stepped : LockOps.step cfg t action s.shared (s.thread t) = some (lock', pc', event)) :
      Moves cfg s (t, ⟨s.thread t, .inl action, pc', event⟩)
        ⟨lock', Function.update s.thread t pc'⟩
  | fails (t : Tid) (result : Int) (here : s.thread t = .unlockWake) (negative : result < 0) :
      Moves cfg s (t, ⟨s.thread t, .inr result, .outside, .unlockReturned kFailure⟩)
        ⟨s.shared, Function.update s.thread t .outside⟩

theorem moves_of_next (moved : (system cfg).next s label s') : Moves cfg s label s' := by
  rcases label with ⟨t, before, action, pc', event⟩
  rcases Program.recorded_next moved with ⟨lock', stepped, same, rfl⟩
  change before = s.thread t at same
  subst same
  cases action with
  | inl action => exact .steps t action lock' pc' event stepped
  | inr result =>
      simp only [Program.extend, failWake] at stepped
      split at stepped
      · next can =>
          cases stepped
          rw [if_pos (Int.ne_of_lt can.2)]
          exact .fails t result can.1 can.2
      · cases stepped

/-! ### Who has the lock -/

structure Held (s : Machine Tid (LockOpsBase Tid) LockOpsPc) : Prop where
  word : s.shared.tso.memory .mem = kUnlocked ∨ s.shared.tso.memory .mem = kLocked
  owned : Owned s.shared (places s)

omit [DecidableEq Tid] in
theorem Held.nobody (held : Held s) (free : s.shared.tso.memory .mem ≠ kLocked) (u : Tid) :
    (s.thread u).holdsLock = false :=
  Bool.eq_false_iff.mpr fun holds =>
    free (held.owned.taken u (.inl ((holdsLock_place _).trans holds)))

/-- A step writes nothing to the word in memory but the two values of a lock. -/
theorem effect_word {places : Tid -> Place} {there there' : Place}
    (effect : StepEffect cfg t lock lock' there there') (owned : Owned lock places)
    (word : lock.tso.memory .mem = kUnlocked ∨ lock.tso.memory .mem = kLocked) :
    lock'.tso.memory .mem = kUnlocked ∨ lock'.tso.memory .mem = kLocked := by
  cases effect with
  | drains there drained =>
      rcases StoreBuffers.drain_eq_some drained with ⟨a, w, stores, buffered, rfl⟩
      have only := (owned.buffered t (by rw [buffered]; exact List.cons_ne_nil _ _)).1
      rw [buffered] at only
      cases only
      exact .inl (Function.update_self LockWord.mem kUnlocked lock.tso.memory)
  | acquires _ _ _ => exact .inr (withWord_self ..)
  | registers _ | leaves _ =>
      rw [withWord_other _ (by decide)]
      exact word
  | _ => exact word

theorem Held.next (held : Held s) (moves : Moves cfg s label s') : Held s' := by
  cases moves with
  | steps t action lock' pc' event stepped =>
      refine ⟨effect_word (step_effect stepped) held.owned held.word, ?_⟩
      rw [places_update]
      exact (step_effect stepped).owned held.owned
  | fails t result here _ =>
      refine ⟨held.word, ?_⟩
      rw [places_update]
      refine held.owned.stay rfl rfl ?_ fun _ => rfl
      unfold places
      rw [here]
      rfl

/-! ### Statuses -/

omit [DecidableEq Tid] in
theorem exchanges_iff : (@view Tid).exchanges ⟨pc, .inl action, pc', event⟩ = true <->
    pc = .tryExchange .api ∧ action = .run := by
  cases pc with
  | tryExchange site => cases site <;> cases action <;> simp [view]
  | _ => simp [view]

theorem drain_event (stepped : LockOps.step cfg t .drain lock pc = some (lock', pc', event)) :
    event = .internal := by
  simp only [LockOps.step, Option.map_eq_some_iff, Prod.mk.injEq] at stepped
  rcases stepped with ⟨tso, _, _, _, rfl⟩
  rfl

omit [DecidableEq Tid] in
/-- Of the failures to take the lock only that of `try_lock` is told. -/
theorem afterFailure_event (cfg : LockOpsConfig) (site : TryLockSite) :
    site = .api ∧ (afterFailure cfg site).2 = .tryLockReturned kFailure ∨
      site ≠ .api ∧ (afterFailure cfg site).2 = .internal := by
  cases site
  case api => exact .inl ⟨rfl, rfl⟩
  all_goals exact .inr ⟨nofun, rfl⟩

/-- What the exchange of `try_lock` or `lock` does and tells. -/
theorem exchange_step {site : TryLockSite}
    (stepped : LockOps.step cfg t .run lock (.tryExchange site) = some (lock', pc', event)) :
    lock'.tso.memory .mem = kLocked ∧
      (lock.tso.memory .mem ≠ kLocked ∧ pc' = .holding ∧ event = afterSuccess site ∨
        lock.tso.memory .mem = kLocked ∧ event = (afterFailure cfg site).2) := by
  simp only [LockOps.step, Option.bind_eq_bind, Option.bind_eq_some_iff] at stepped
  rcases stepped with ⟨⟨tso, old⟩, modified, stepped⟩
  rcases StoreBuffers.modify_eq_some modified with ⟨_, rfl, rfl⟩
  split at stepped
  · next free =>
      cases stepped
      exact ⟨Function.update_self LockWord.mem kLocked lock.tso.memory, .inl ⟨free, rfl, rfl⟩⟩
  · next taken =>
      cases stepped
      exact ⟨Function.update_self LockWord.mem kLocked lock.tso.memory, .inr ⟨not_not.mp taken, rfl⟩⟩

/-- Without an exchange no success in taking the lock is told. -/
theorem other_step (stepped : LockOps.step cfg t action lock pc = some (lock', pc', event))
    (other : forall site, ¬(pc = .tryExchange site ∧ action = .run)) :
    event = .internal ∨ event = .tryLockReturned kFailure ∨
      pc' = .outside ∧ exists ret, event = .unlockReturned ret := by
  by_cases isDrain : action = .drain
  · subst isDrain
    exact .inl (drain_event stepped)
  cases pc <;> cases action <;> simp only [LockOps.step, reduceCtorEq, not_true] at stepped isDrain
  case tryExchange.run site => exact absurd ⟨rfl, rfl⟩ (other site)
  case tryLoad.run site =>
    split at stepped
    · cases stepped
      exact .inl rfl
    · cases stepped
      rcases afterFailure_event cfg site with ⟨_, told⟩ | ⟨_, told⟩
      · exact .inr (.inl told)
      · exact .inl told
  case addWaiter.run | subWaiter.run =>
    simp only [Option.bind_eq_bind, Option.bind_eq_some_iff] at stepped
    rcases stepped with ⟨⟨tso, old⟩, _, stepped⟩
    cases stepped
    exact .inl rfl
  case unlockWake.wake woken =>
    cases woken <;> dsimp only at stepped <;> split at stepped <;> cases stepped <;>
      exact .inr (.inr ⟨rfl, _, rfl⟩)
  all_goals try (split at stepped)
  all_goals cases stepped
  all_goals first
    | exact .inl rfl
    | exact .inr (.inr ⟨rfl, _, rfl⟩)

theorem newHolder (held : Held s) (free : s.shared.tso.memory .mem ≠ kLocked) :
    view.NewHolder t s ⟨lock', Function.update s.thread t .holding⟩ := by
  refine ⟨held.nobody free, ?_, fun u holds => ?_⟩
  · change (Function.update s.thread t .holding t).holdsLock = true
    rw [Function.update_self]
    rfl
  · by_contra different
    change (Function.update s.thread t .holding u).holdsLock = true at holds
    rw [Function.update_of_ne different, held.nobody free u] at holds
    cases holds

omit [DecidableEq Tid] in
/-- A step that is no exchange and tells of no success takes nothing. -/
theorem takesTruthfully_of_other
    {record : StepRecord LockOpsPc (LockOpsAction Tid ⊕ Int) LockOpsEvent}
    (no : (@view Tid).exchanges record = false)
    (other : record.event = .internal ∨ record.event = .tryLockReturned kFailure ∨
      exists ret, record.event = .unlockReturned ret) :
    view.TakesTruthfully s (t, record) s' := by
  refine ⟨⟨fun success => ?_, fun changed => ?_⟩, fun exchanges => ?_, fun success => ?_⟩
  · change view.trylockReturn record.event = some kSuccess at success
    rcases other with told | told | ⟨ret, told⟩ <;> rw [told] at success <;> cases success
  · exact absurd changed.1 (Bool.eq_false_iff.mp no)
  · exact absurd exchanges (Bool.eq_false_iff.mp no)
  · change view.lockReturn record.event = some kSuccess at success
    rcases other with told | told | ⟨ret, told⟩ <;> rw [told] at success <;> cases success

theorem takesTruthfully (held : Held s) (moves : Moves cfg s label s') :
    view.TakesTruthfully s label s' := by
  cases moves with
  | fails t result here negative =>
      refine takesTruthfully_of_other ?_ (.inr (.inr ⟨_, rfl⟩))
      simp [view]
  | steps t action lock' pc' event stepped =>
      by_cases exchanges : exists site, s.thread t = .tryExchange site ∧ action = .run
      · rcases exchanges with ⟨site, here, rfl⟩
        rw [here] at stepped
        rcases exchange_step stepped with ⟨locked, ⟨free, rfl, rfl⟩ | ⟨taken, rfl⟩⟩
        · rw [here]
          cases site
          case api =>
            refine ⟨⟨fun _ => ⟨rfl, held.word.resolve_right free, locked⟩, fun _ => rfl⟩,
              fun _ => rfl, fun told => ?_⟩
            cases told
          all_goals
            refine ⟨⟨fun told => ?_, fun changed => ?_⟩, fun told => ?_,
              fun _ => newHolder held free⟩
            · cases told
            · cases changed.1
            · cases told
        · rw [here]
          cases site
          case api =>
            refine ⟨⟨fun told => ?_, fun changed => ?_⟩, fun _ => rfl, fun told => ?_⟩
            · cases told
            · exact absurd (changed.2.1.symm.trans taken) (show kUnlocked ≠ kLocked by decide)
            · cases told
          all_goals exact takesTruthfully_of_other rfl (.inl rfl)
      · have other : forall site, ¬(s.thread t = .tryExchange site ∧ action = .run) :=
          fun site here => exchanges ⟨site, here⟩
        refine takesTruthfully_of_other
          (Bool.eq_false_iff.mpr fun is => other .api (exchanges_iff.mp is)) ?_
        rcases other_step stepped other with told | told | ⟨_, ret, told⟩
        · exact .inl told
        · exact .inr (.inl told)
        · exact .inr (.inr ⟨ret, told⟩)

theorem releasesWord (moves : Moves cfg s label s') : view.ReleasesWord s label s' := by
  cases moves with
  | fails t result here _ =>
      refine ⟨fun holds _ => ?_, fun _ => ?_⟩
      · change (s.thread t).holdsLock = true at holds
        rw [here] at holds
        cases holds
      · change (Function.update s.thread t _ t).holdsLock = false
        rw [Function.update_self]
        rfl
  | steps t action lock' pc' event stepped =>
      have now : Function.update s.thread t pc' t = pc' := Function.update_self ..
      refine ⟨fun holds gone => ?_, fun returned => ?_⟩
      · change (s.thread t).holdsLock = true at holds
        change (Function.update s.thread t pc' t).holdsLock = false at gone
        change lock'.tso.load t .mem = kUnlocked
        rw [now] at gone
        have effect := step_effect stepped
        rw [← holdsLock_place] at holds gone
        generalize place (s.thread t) = there at effect holds
        generalize place pc' = there' at effect gone
        cases effect with
        | stores => exact StoreBuffers.load_store ..
        | silent | drains => cases holds.symm.trans gone
        | unlocks | acquires => cases gone
        | _ => cases holds
      · change (Function.update s.thread t pc' t).holdsLock = false
        rw [now]
        have other : forall site, ¬(s.thread t = .tryExchange site ∧ action = .run) := by
          rintro site ⟨here, rfl⟩
          rw [here] at stepped
          rcases exchange_step stepped with ⟨_, ⟨_, _, rfl⟩ | ⟨_, rfl⟩⟩ <;> cases site <;>
            cases returned
        rcases other_step stepped other with told | told | ⟨outside, _⟩
        · change (view.unlockReturn event).isSome = true at returned
          rw [told] at returned
          cases returned
        · change (view.unlockReturn event).isSome = true at returned
          rw [told] at returned
          cases returned
        · rw [outside]
          rfl

/-- Only a wake-up makes `unlock` return anything but success. -/
theorem unlockReturned_step {ret : Int}
    (stepped : LockOps.step cfg t action lock pc = some (lock', pc', .unlockReturned ret))
    (awake : forall woken, action ≠ .wake woken) : ret = kSuccess := by
  by_cases isDrain : action = .drain
  · subst isDrain
    cases drain_event stepped
  cases pc <;> cases action <;> simp only [LockOps.step, reduceCtorEq, not_true] at stepped isDrain
  case tryExchange.run site =>
    rcases exchange_step stepped with ⟨_, ⟨_, _, told⟩ | ⟨_, told⟩⟩ <;> cases site <;> cases told
  case tryLoad.run site =>
    split at stepped
    · cases stepped
    · cases site <;> cases stepped
  case addWaiter.run | subWaiter.run =>
    simp only [Option.bind_eq_bind, Option.bind_eq_some_iff] at stepped
    rcases stepped with ⟨⟨tso, old⟩, _, stepped⟩
    cases stepped
  case unlockWake.wake woken => exact absurd rfl (awake woken)
  all_goals try (split at stepped)
  all_goals cases stepped
  all_goals rfl

/-- `unlock` returns success from a wake-up exactly if nobody was asleep. -/
theorem wake_step {woken : Option Tid}
    (stepped : LockOps.step cfg t (.wake woken) lock pc = some (lock', pc', event)) :
    pc = .unlockWake ∧
      exists ret, event = .unlockReturned ret ∧ (ret = kSuccess <-> lock.sleepers = []) := by
  cases pc <;> cases woken <;> simp only [LockOps.step, reduceCtorEq] at stepped
  case unlockWake.none =>
    split at stepped
    · next nobody =>
        cases stepped
        exact ⟨rfl, kSuccess, rfl, iff_of_true rfl nobody.2⟩
    · cases stepped
  case unlockWake.some woken =>
    split at stepped
    · next asleep =>
        cases stepped
        exact ⟨rfl, kFailure, rfl, iff_of_false (by decide) (List.ne_nil_of_mem asleep.2)⟩
    · cases stepped

theorem unlockSucceeds_step (moved : (system cfg).next s label s') (fine : ¬view.Fails label) :
    view.UnlockSucceeds label <-> view.FindsNobody s label := by
  cases moves_of_next moved with
  | fails t result here negative =>
      refine absurd ⟨result, ?_, negative⟩ fine
      change futexResult _ = _
      simp only [futexResult, here]
  | steps t action lock' pc' event stepped =>
      by_cases waking : exists woken, action = .wake woken
      · rcases waking with ⟨woken, rfl⟩
        rcases wake_step stepped with ⟨here, ret, rfl, succeeds⟩
        have wakes : (@view Tid).wakes ⟨s.thread t, .inl (.wake woken), pc',
            .unlockReturned ret⟩ = true := by
          simp only [view, here]
        exact ⟨fun success _ => succeeds.mp (success ret rfl), fun nobody ret' returned => by
          cases returned
          exact succeeds.mpr (nobody wakes)⟩
      · have awake : forall woken, action ≠ .wake woken := fun woken same => waking ⟨woken, same⟩
        refine iff_of_true (fun ret returned => ?_) fun wakes => absurd ?_ waking
        · cases event <;> cases returned
          exact unlockReturned_step stepped awake
        · simp only [view] at wakes
          split at wakes
          · next same => exact ⟨_, Sum.inl.inj same⟩
          · next same => cases same
          · cases wakes

theorem truthfulUntilWakeUp (cfg : LockOpsConfig) :
    (@view Tid).TruthfulUntilWakeUp (system cfg) := by
  refine FutexLock.truthfulUntilWakeUp ?_
    (fun _ _ _ held moved => Held.next held (moves_of_next moved))
    (fun _ _ _ held moved => takesTruthfully held (moves_of_next moved))
    (fun _ _ _ moved => releasesWord (moves_of_next moved))
    (fun _ _ _ moved fine => unlockSucceeds_step moved fine)
  rintro _ rfl
  exact ⟨.inl rfl, owned_initial⟩

end OpsStatus

/-! ## Both -/

/-- In every configuration the two locks tell the truth, until a wake-up of
`unlock` wakes somebody. -/
theorem statuses_truthful_iff (Tid : Type) [DecidableEq Tid] :
    (forall cfg, (@BaseStatus.view Tid cfg).TruthfulUntilWakeUp (BaseStatus.system cfg)) ∧
      forall cfg, (@OpsStatus.view Tid).TruthfulUntilWakeUp (OpsStatus.system cfg) :=
  ⟨BaseStatus.truthfulUntilWakeUp, OpsStatus.truthfulUntilWakeUp⟩

/-- A thread spins and goes to sleep; `unlock` wakes it. -/
def sleeperWoken : List (Bool × (LockBaseAction Bool ⊕ Int)) :=
  (false, .inl .callLock) :: List.replicate 2 (false, .inl .run) ++
    (true, .inl .callLock) :: List.replicate 132 (true, .inl .run) ++
    [(false, .inl .callUnlock), (false, .inl .run), (false, .inl .run),
      (false, .inl (.wake (some true)))]

def sleeperWokenOps : List (Bool × (LockOpsAction Bool ⊕ Int)) :=
  (false, .inl .callLock) :: List.replicate 2 (false, .inl .run) ++
    (true, .inl .callLock) :: List.replicate 4 (true, .inl .run) ++
    [(false, .inl .callUnlock), (false, .inl .run), (false, .inl .run), (false, .inl .drain),
      (false, .inl (.wake (some true)))]

def onlyFutex : LockBaseConfig := ⟨false, false, false, true, true⟩
def onlyFutexOps : LockOpsConfig := ⟨1, 1, false, false, true⟩

/-- No system call has failed, but `unlock` says so in both locks. -/
theorem wakeUp_reported_as_failure :
    ¬(@BaseStatus.view Bool onlyFutex).Truthful (BaseStatus.system onlyFutex) ∧
      ¬(@OpsStatus.view Bool).Truthful (OpsStatus.system onlyFutexOps) := by
  constructor
  · have run : (BaseStatus.system onlyFutex).Run (@BaseStatus.view Bool onlyFutex).noFailure _ _ :=
      Program.run_play_decided (LockBase.fresh_init onlyFutex) sleeperWoken (by decide +kernel)
    exact FutexLock.not_truthful 1 run (by decide +kernel) (by decide)
  · have run : (OpsStatus.system onlyFutexOps).Run (@OpsStatus.view Bool).noFailure _ _ :=
      Program.run_play_decided LockOps.initial_init sleeperWokenOps (by decide +kernel)
    exact FutexLock.not_truthful 1 run (by decide +kernel) (by decide)

end Locks
end Autolock
