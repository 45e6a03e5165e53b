import Autolock.Interpose.PthreadSpin

namespace Autolock
namespace Interpose

open Concurrency

/-!
# When the spin lock is initialised only once

A thread that has read `spin + 1` early may win the exchange after another one
has initialised the spin lock and cleared `spin + 2` again, and then initialises
it once more, under whoever holds it by then.  In every run without such a late
initialisation the spin lock is initialised once, before it is used, and nobody
shares it; with one it never is.
-/

namespace PthreadSpin

/-! ## Where a thread is -/

/-- Between winning the exchange and clearing `spin + 2`. -/
def Initialising : SpinPc -> Prop
  | .spinInit _ | .storeIsInit _ | .clearIniting _ => True
  | _ => False

/-- The spin lock has been initialised, and `spin + 1` is about to tell. -/
def Storing : SpinPc -> Prop
  | .storeIsInit _ => True
  | _ => False

/-- The thread has lost the exchange. -/
def Waits : SpinPc -> Prop
  | .waitIniting _ => True
  | _ => False

/-- The thread relies on the spin lock being initialised. -/
def Beyond : SpinPc -> Prop
  | .storeIsInit _ | .clearIniting _ | .operate _ | .holding => True
  | _ => False

/-! ## What a step does -/

/-- The steps of a thread, one by one. -/
inductive Moves (values : SpinValues) (m : SpinMutex) :
    SpinPc -> SpinMutex -> SpinPc -> SpinEvent -> Prop
  | calls (call : SpinCall) : Moves values m .outside m (.readIsInit call) .internal
  | trusts (call : SpinCall) (told : m.isInit ≠ 0) :
      Moves values m (.readIsInit call) m (.operate call) .internal
  | doubts (call : SpinCall) : Moves values m (.readIsInit call) m (.exchange call) .internal
  | wins (call : SpinCall) (free : m.initing = 0) :
      Moves values m (.exchange call) { m with initing := 1 } (.spinInit call) .internal
  | loses (call : SpinCall) (taken : m.initing ≠ 0) :
      Moves values m (.exchange call) { m with initing := 1 } (.waitIniting call) .internal
  | initialises (call : SpinCall) :
      Moves values m (.spinInit call) { m with spin := values.unlocked } (.storeIsInit call)
        (.initialised m.isInit)
  | tells (call : SpinCall) :
      Moves values m (.storeIsInit call) { m with isInit := 1 } (.clearIniting call) .internal
  | clears (call : SpinCall) :
      Moves values m (.clearIniting call) { m with initing := 0 } (.operate call) .internal
  | waits (call : SpinCall) : Moves values m (.waitIniting call) m (.waitIniting call) .internal
  | joins (call : SpinCall) (cleared : m.initing = 0) :
      Moves values m (.waitIniting call) m (.operate call) .internal
  | acquires (call : SpinCall) (free : m.spin = values.unlocked) :
      Moves values m (.operate call) { m with spin := values.locked } .holding (.returned call 0)
  | fails (call : SpinCall) (ret : Int) :
      Moves values m (.operate call) m .outside (.returned call ret)
  | spins (call : SpinCall) : Moves values m (.operate call) m (.operate call) .internal
  | releases : Moves values m .holding { m with spin := values.unlocked } .outside (.unlocked 0)

theorem moves_of_step {values : SpinValues} {action : SpinAction} {m m' : SpinMutex}
    {pc pc' : SpinPc} {event : SpinEvent}
    (stepped : step values action m pc = some (m', pc', event)) :
    Moves values m pc m' pc' event := by
  cases pc <;> cases action <;> simp only [step, reduceCtorEq] at stepped
  case outside.call call =>
    cases stepped
    exact .calls call
  case readIsInit.run call =>
    split at stepped
    · cases stepped
      exact .doubts call
    · next told =>
        cases stepped
        exact .trusts call told
  case exchange.run call =>
    split at stepped
    · next free =>
        cases stepped
        exact .wins call free
    · next taken =>
        cases stepped
        exact .loses call taken
  case spinInit.run call =>
    cases stepped
    exact .initialises call
  case storeIsInit.run call =>
    cases stepped
    exact .tells call
  case clearIniting.run call =>
    cases stepped
    exact .clears call
  case waitIniting.run call =>
    split at stepped
    · next cleared =>
        cases stepped
        exact .joins call cleared
    · cases stepped
      exact .waits call
  case operate.run call =>
    cases call with
    | trylock =>
        dsimp only at stepped
        split at stepped
        · next free =>
            cases stepped
            exact .acquires .trylock free
        · cases stepped
          exact .fails .trylock EBUSY
    | lock =>
        dsimp only at stepped
        split at stepped
        · next free =>
            cases stepped
            exact .acquires .lock free
        · cases stepped
          exact .spins .lock
  case holding.callUnlock =>
    cases stepped
    exact .releases

variable {Tid : Type} {trace : List (Tid × SpinEvent)}

theorem inits_concat (trace : List (Tid × SpinEvent)) (label : Tid × SpinEvent) :
    inits (trace ++ [label]) = inits trace + if IsInit label.2 then 1 else 0 := by
  simp [inits, List.countP_append, List.countP_singleton]

theorem inits_mono (trace : List (Tid × SpinEvent)) (label : Tid × SpinEvent)
    (some : 0 < inits trace) : 0 < inits (trace ++ [label]) := by
  rw [inits_concat]
  omega

/-! ## What holds in every run -/

/-- The spin lock has been initialised, or somebody is at it. -/
def Attended (trace : List (Tid × SpinEvent)) (thread : Tid -> SpinPc) : Prop :=
  0 < inits trace ∨ exists u, Initialising (thread u)

structure Inv (trace : List (Tid × SpinEvent)) (m : SpinMutex) (thread : Tid -> SpinPc) :
    Prop where
  initialiser : Exclusive Initialising thread
  busy : forall t, Initialising (thread t) -> m.initing ≠ 0
  begun : m.initing ≠ 0 -> Attended trace thread
  waits : forall t, Waits (thread t) -> Attended trace thread
  beyond : forall t, Beyond (thread t) -> 0 < inits trace
  told : m.isInit ≠ 0 -> 0 < inits trace
  shown : 0 < inits trace -> m.isInit ≠ 0 ∨ exists u, Storing (thread u)
  first : forall before label, before ++ [label] <+: trace -> IsOperation label.2 ->
    0 < inits before

variable [DecidableEq Tid] {values : SpinValues} {m m' : SpinMutex} {thread : Tid -> SpinPc}
  {t : Tid} {pc pc' : SpinPc} {event : SpinEvent}

section step

variable (inv : Inv trace m thread) (here : thread t = pc) (moves : Moves values m pc m' pc' event)

include inv here moves

theorem initialiser_step : Exclusive Initialising (Function.update thread t pc') := by
  cases moves with
  | wins call free => exact Exclusive.enter fun u there => inv.busy u there free
  | initialises call | tells call =>
      refine inv.initialiser.keep fun _ => ?_
      rw [here]
      trivial
  | _ => exact inv.initialiser.keep fun now => now.elim

/-- While the initialiser is at it `spin + 2` stays set. -/
theorem busy_step (u : Tid) (there : Initialising (Function.update thread t pc' u)) :
    m'.initing ≠ 0 := by
  cases moves with
  | wins call free | loses call taken =>
      dsimp only
      decide
  | clears call =>
      have mine : Initialising (thread t) := by
        rw [here]
        trivial
      have itself := inv.initialiser u t (of_update (fun now => now.elim) there) mine
      rw [itself, Function.update_self] at there
      exact there.elim
  | initialises call | tells call =>
      refine inv.busy u (of_update (fun _ => ?_) there)
      rw [here]
      trivial
  | _ => exact inv.busy u (of_update (fun now => now.elim) there)

/-- Somebody goes on attending until the spin lock has been initialised. -/
theorem attended_step (attended : Attended trace thread) :
    Attended (trace ++ [(t, event)]) (Function.update thread t pc') := by
  rcases attended with done | somebody
  · exact Or.inl (inits_mono trace _ done)
  · cases moves with
    | clears call =>
        refine Or.inl (inits_mono trace _ (inv.beyond t ?_))
        rw [here]
        trivial
    | initialises call | tells call => exact Or.inr (exists_update somebody fun _ => trivial)
    | wins call free => exact Or.inr (exists_update_self trivial)
    | _ =>
        refine Or.inr (exists_update somebody fun there => ?_)
        rw [here] at there
        exact there.elim

theorem begun_step (set : m'.initing ≠ 0) :
    Attended (trace ++ [(t, event)]) (Function.update thread t pc') := by
  have still := attended_step inv here moves
  cases moves with
  | wins call free => exact Or.inr (exists_update_self trivial)
  | loses call taken => exact still (inv.begun taken)
  | clears call => exact absurd rfl set
  | _ => exact still (inv.begun set)

/-- Whoever loses the exchange waits for somebody. -/
theorem waits_step (u : Tid) (there : Waits (Function.update thread t pc' u)) :
    Attended (trace ++ [(t, event)]) (Function.update thread t pc') := by
  have still := attended_step inv here moves
  cases moves with
  | loses call taken => exact still (inv.begun taken)
  | waits call =>
      refine still (inv.waits u (of_update (fun _ => ?_) there))
      rw [here]
      trivial
  | _ => exact still (inv.waits u (of_update (fun now => now.elim) there))

omit [DecidableEq Tid] in
/-- What a thread does with the spin lock comes after its initialisation. -/
theorem done_of_beyond (now : Beyond pc') : 0 < inits (trace ++ [(t, event)]) := by
  have already : Beyond (thread t) -> 0 < inits (trace ++ [(t, event)]) :=
    fun there => inits_mono trace _ (inv.beyond t there)
  rw [here] at already
  cases moves with
  | trusts call told => exact inits_mono trace _ (inv.told told)
  | initialises call =>
      have init : IsInit (.initialised m.isInit) := trivial
      rw [inits_concat, if_pos init]
      exact Nat.succ_pos _
  | joins call cleared =>
      have waited : Waits (thread t) := by
        rw [here]
        trivial
      rcases inv.waits t waited with done | ⟨u, there⟩
      · exact inits_mono trace _ done
      · exact absurd cleared (inv.busy u there)
  | tells call | clears call | acquires call free | spins call => exact already trivial
  | _ => exact now.elim

theorem beyond_step (u : Tid) (there : Beyond (Function.update thread t pc' u)) :
    0 < inits (trace ++ [(t, event)]) := by
  by_cases itself : u = t
  · rw [itself, Function.update_self] at there
    exact done_of_beyond inv here moves there
  · rw [Function.update_of_ne itself] at there
    exact inits_mono trace _ (inv.beyond u there)

omit [DecidableEq Tid] in
theorem told_step (told : m'.isInit ≠ 0) : 0 < inits (trace ++ [(t, event)]) := by
  cases moves with
  | tells call =>
      refine inits_mono trace _ (inv.beyond t ?_)
      rw [here]
      trivial
  | _ => exact inits_mono trace _ (inv.told told)

/-- Between the initialisation and the store to `spin + 1` somebody is about to make that store. -/
theorem shown_step (done : 0 < inits (trace ++ [(t, event)])) :
    m'.isInit ≠ 0 ∨ exists u, Storing (Function.update thread t pc' u) := by
  rw [inits_concat] at done
  cases moves with
  | initialises call => exact Or.inr (exists_update_self trivial)
  | tells call =>
      refine Or.inl ?_
      dsimp only
      decide
  | _ =>
      refine (inv.shown done).imp_right fun somebody => exists_update somebody fun there => ?_
      rw [here] at there
      exact there.elim

omit [DecidableEq Tid] in
theorem first_step (before : List (Tid × SpinEvent)) (label : Tid × SpinEvent)
    (begins : before ++ [label] <+: trace ++ [(t, event)]) (operates : IsOperation label.2) :
    0 < inits before := by
  rcases begins_concat begins with ⟨rfl, rfl⟩ | earlier
  · have there : Beyond (thread t) := by
      rw [here]
      cases moves with
      | acquires call free | fails call ret | releases => trivial
      | _ => exact operates.elim
    exact inv.beyond t there
  · exact inv.first before label earlier operates

theorem Inv.step : Inv (trace ++ [(t, event)]) m' (Function.update thread t pc') where
  initialiser := initialiser_step inv here moves
  busy := busy_step inv here moves
  begun := begun_step inv here moves
  waits := waits_step inv here moves
  beyond := beyond_step inv here moves
  told := told_step inv here moves
  shown := shown_step inv here moves
  first := first_step inv here moves

omit [DecidableEq Tid] in
/-- A late initialisation is the second one. -/
theorem twice_of_late (late : IsLateInit event) : 2 ≤ inits (trace ++ [(t, event)]) := by
  cases moves with
  | initialises call =>
      have init : IsInit (.initialised m.isInit) := trivial
      have done := inv.told late
      rw [inits_concat, if_pos init]
      omega
  | _ => exact late.elim

end step

/-! ## What holds until an initialisation comes too late -/

/-- There has been one initialisation at most, and the word tells whether somebody holds the lock. -/
structure Once (values : SpinValues) (trace : List (Tid × SpinEvent)) (m : SpinMutex)
    (thread : Tid -> SpinPc) : Prop where
  once : inits trace ≤ 1
  word : forall t, holds (thread t) -> m.spin = values.locked
  holder : Exclusive holds thread

omit [DecidableEq Tid] in
/-- An initialisation that is not late is the first one. -/
theorem inits_eq_zero (inv : Inv trace m thread) {call : SpinCall}
    (here : thread t = .spinInit call) (early : m.isInit = 0) : inits trace = 0 := by
  by_contra done
  rcases inv.shown (Nat.pos_of_ne_zero done) with told | ⟨u, storing⟩
  · exact told early
  · have mine : Initialising (thread t) := by
      rw [here]
      trivial
    have theirs : Initialising (thread u) := by
      cases there : thread u <;> rw [there] at storing <;> trivial
    rw [inv.initialiser u t theirs mine, here] at storing
    exact storing

theorem Once.step (once : Once values trace m thread) (inv : Inv trace m thread)
    (here : thread t = pc) (moves : Moves values m pc m' pc' event) (early : ¬IsLateInit event) :
    Once values (trace ++ [(t, event)]) m' (Function.update thread t pc') := by
  have word_of : (forall u, holds (Function.update thread t pc' u) -> holds (thread u)) ->
      m'.spin = m.spin ->
      forall u, holds (Function.update thread t pc' u) -> m'.spin = values.locked :=
    fun before same u now => same.trans (once.word u (before u now))
  cases moves with
  | initialises call =>
      have none := inits_eq_zero inv here (not_not.mp early)
      have nobody : forall u, ¬holds (Function.update thread t (.storeIsInit call) u) := by
        intro u now
        have before : holds (thread u) := of_update (fun now => by cases now) now
        have done := inv.beyond u (by rw [before]; trivial)
        omega
      refine ⟨?_, fun u now => absurd now (nobody u), fun u _ now => absurd now (nobody u)⟩
      rw [inits_concat, none]
      split <;> decide
  | acquires call free =>
      have nobody : forall u, ¬holds (thread u) := fun u there =>
        values.different ((once.word u there).symm.trans free)
      exact ⟨by simpa [inits_concat, IsInit] using once.once, fun _ _ => rfl,
        Exclusive.enter nobody⟩
  | releases =>
      have nobody : forall u, ¬holds (Function.update thread t .outside u) := by
        intro u now
        have before : holds (thread u) := of_update (fun now => by cases now) now
        rw [once.holder u t before here, Function.update_self] at now
        cases now
      exact ⟨by simpa [inits_concat, IsInit] using once.once, fun u now => absurd now (nobody u),
        fun u _ now => absurd now (nobody u)⟩
  | _ =>
      exact ⟨by simpa [inits_concat, IsInit] using once.once,
        word_of (fun _ => of_update fun now => by cases now) rfl,
        once.holder.keep fun now => by cases now⟩

/-- As long as no initialisation comes too late there is one only; one that does is the second. -/
structure Account (values : SpinValues) (trace : List (Tid × SpinEvent))
    (s : Machine Tid SpinMutex SpinPc) : Prop where
  inv : Inv trace s.shared s.thread
  once : (forall label, label ∈ trace -> ¬IsLateInit label.2) ->
    Once values trace s.shared s.thread
  late : forall label, label ∈ trace -> IsLateInit label.2 -> 2 ≤ inits trace

omit [DecidableEq Tid] in
theorem account_zeroed {s : Machine Tid SpinMutex SpinPc} (initial : zeroed s) :
    Account values [] s := by
  rcases s with ⟨m, thread⟩
  rcases initial with ⟨rfl, outside⟩
  have nobody : forall {property : SpinPc -> Prop}, ¬property .outside ->
      forall t, ¬property (thread t) := by
    intro property absent t
    have here : thread t = .outside := outside t
    rw [here]
    exact absent
  exact
    { inv :=
        { initialiser := fun t _ there => absurd there (nobody id t)
          busy := fun t there => absurd there (nobody id t)
          begun := fun set => absurd rfl set
          waits := fun t there => absurd there (nobody id t)
          beyond := fun t there => absurd there (nobody id t)
          told := fun set => absurd rfl set
          shown := nofun
          first := fun before label begins => absurd begins not_begins_nil }
      once := fun _ =>
        { once := Nat.zero_le 1
          word := fun t there => absurd there (nobody nofun t)
          holder := fun t _ there => absurd there (nobody nofun t) }
      late := nofun }

theorem account_of_run {s : Machine Tid SpinMutex SpinPc}
    (run : (system Tid values).Run TransitionSystem.unguarded trace s) : Account values trace s := by
  refine run.invariant (Account values) (fun _ => account_zeroed) ?_
  intro trace s label s' account moved _
  rcases Program.system_next moved with ⟨action, m', pc', stepped, rfl⟩
  have moves := moves_of_step stepped
  refine ⟨account.inv.step rfl moves, fun early => ?_, ?_⟩
  · rw [List.forall_mem_append, List.forall_mem_singleton] at early
    exact (account.once early.1).step account.inv rfl moves early.2
  · rw [List.forall_mem_append, List.forall_mem_singleton]
    refine ⟨fun other member late => ?_, twice_of_late account.inv rfl moves⟩
    have twice := account.late other member late
    rw [inits_concat]
    omega

/-- In every run there has been no second initialisation and no use before the
first, and at most one thread holds the lock, exactly if none came too late. -/
theorem initialisedOnce_and_exclusive_iff {s : Machine Tid SpinMutex SpinPc}
    (run : (system Tid values).Run TransitionSystem.unguarded trace s) :
    InitialisedOnce trace ∧ Exclusive holds s.thread <->
      forall label, label ∈ trace -> ¬IsLateInit label.2 := by
  have account := account_of_run run
  constructor
  · rintro ⟨single, _⟩ label member late
    exact absurd (account.late label member late) (Nat.not_le.mpr (Nat.lt_succ_of_le single.once))
  · intro early
    have once := account.once early
    exact ⟨⟨once.once, account.inv.first⟩, once.holder⟩

/-- A spin lock whose unlocked state is zero. -/
def zeroUnlocked : SpinValues := ⟨0, 1, by decide⟩

def zeroedMachine : Machine Nat SpinMutex SpinPc := ⟨⟨0, 0, 0⟩, fun _ => .outside⟩

/-- The first call of a thread that meets nobody. -/
def firstLock (t : Nat) : List (Nat × SpinAction) :=
  [(t, .run), (t, .run), (t, .run), (t, .run), (t, .run)]

/-- Thread 0 locks and unlocks, and thread 1 locks after it. -/
def oneAfterTheOther : List (Nat × SpinAction) :=
  (0, .call .lock) :: (0, .run) :: firstLock 0 ++
    [(0, .callUnlock), (1, .call .lock), (1, .run), (1, .run)]

theorem initialisedOnce_and_exclusive_iff_oneAfterTheOther :
    let end' := (program Nat zeroUnlocked).play oneAfterTheOther zeroedMachine
    InitialisedOnce end'.2 ∧ Exclusive holds end'.1.thread <->
      forall label, label ∈ end'.2 -> ¬IsLateInit label.2 :=
  initialisedOnce_and_exclusive_iff
    (Program.run_play ⟨rfl, fun _ => rfl⟩ oneAfterTheOther (by decide))

/-- Thread 1 looks at `spin + 1`, thread 0 initialises the spin lock and locks
it, and then thread 1 wins the exchange. -/
def lateWinner : List (Nat × SpinAction) :=
  [(1, .call .lock), (1, .run), (0, .call .lock), (0, .run)] ++ firstLock 0 ++ firstLock 1

/-- Both threads hold the lock, which has been initialised twice. -/
theorem lateWinner_shares :
    exists trace s, (system Nat zeroUnlocked).Run TransitionSystem.unguarded trace s ∧
      inits trace = 2 ∧ ¬InitialisedOnce trace ∧ ¬Exclusive holds s.thread := by
  refine ⟨_, _, Program.run_play (s := zeroedMachine) ⟨rfl, fun _ => rfl⟩ lateWinner (by decide),
    by decide, fun single => ?_, fun exclusive => ?_⟩
  · exact absurd single.once (by decide)
  · exact absurd (exclusive 0 1 (by decide) (by decide)) (by decide)

end PthreadSpin

end Interpose
end Autolock
