import Autolock.Runner.BenchRunnerBody
import Autolock.UserLocks.LockPrograms

namespace Autolock
namespace Runner

open Concurrency UserLocks

/-!
# What every trial does

Whatever the lock is and however the threads interleave: the lock is set up once
before it is used and taken down once after its last use, the counter is what
the runner expects when the threads have been joined, and no trial is stuck
while the lock lets its callers in.
-/

namespace BenchRunner

/-! ## Where a thread is between the barriers -/

def BarrierCall.index : BarrierCall -> Nat
  | .setup => 0
  | .start => 1
  | .finish => 2

/-- How often a thread has come through the barrier, if it had `base` times before the trial. -/
def visit {Body : Type} (base : Nat) : RunnerPc Body -> Barrier.Visit
  | .arrive call => ⟨base + BarrierCall.index call, false⟩
  | .wait call _ => ⟨base + BarrierCall.index call, true⟩
  | .initLock _ | .startStats _ => ⟨base + 1, false⟩
  | .bench _ => ⟨base + 2, false⟩
  | .destroyLock _ | .statsOut _ | .returned => ⟨base + 3, false⟩

/-- What the unique thread of the setup has called in all. -/
def setupCalls (params : BenchParams) : List RunnerCall :=
  .init 0 :: if params.withSchedStats ≠ 0 then [.startStats] else []

/-- What the unique thread of the end has called in all. -/
def finishCalls (params : BenchParams) : List RunnerCall :=
  .destroy 0 :: if params.withSchedStats ≠ 0 then [.statsOut] else []

/-- What the unique thread of the setup has called when it is at some place. -/
def setupDone {Body : Type} (params : BenchParams) : RunnerPc Body -> List RunnerCall
  | .arrive .setup | .wait .setup _ | .initLock _ => []
  | .startStats _ => [.init 0]
  | _ => setupCalls params

def finishDone {Body : Type} (params : BenchParams) : RunnerPc Body -> List RunnerCall
  | .statsOut _ => [.destroy 0]
  | .returned => finishCalls params
  | _ => []

/-- What a thread knows at some place. -/
def At {Tid Body : Type} (base : Nat) (serialBy : Nat -> Option Tid) (t : Tid) : RunnerPc Body -> Prop
  | .wait call round => round = base + BarrierCall.index call
  | .initLock i => i = 0 ∧ serialBy base = some t
  | .startStats isUnique => isUnique = true <-> serialBy base = some t
  | .destroyLock i => i = 0 ∧ serialBy (base + 2) = some t
  | .statsOut isUnique => isUnique = true <-> serialBy (base + 2) = some t
  | _ => True

variable {Tid Body : Type}

/-- What the unique thread of a round has called, if there is one yet. -/
def madeBy (unique : Option Tid) (done : RunnerPc Body -> List RunnerCall)
    (thread : Tid -> RunnerPc Body) : List RunnerCall :=
  match unique with
  | none => []
  | some t => done (thread t)

/-- The barrier serves the threads of the trial, and the calls are those of its
unique threads. -/
structure Inv [Fintype Tid] {Lock : Type} (params : BenchParams) (base : Nat)
    (serialBy : Nat -> Option Tid)
    (s : Machine Tid (WithLock Lock RunnerData) (RunnerPc Body)) : Prop where
  serves : s.shared.data.barrier.Serves (fun t => visit base (s.thread t)) serialBy
  calls : s.shared.data.calls = madeBy (serialBy base) (setupDone params) s.thread ++
    madeBy (serialBy (base + 2)) (finishDone params) s.thread
  places : forall t, At base serialBy t (s.thread t)

section update

variable [DecidableEq Tid] {done : RunnerPc Body -> List RunnerCall} {unique : Option Tid}
  {thread : Tid -> RunnerPc Body} {t : Tid} {pc : RunnerPc Body}

theorem madeBy_self (mine : unique = some t) :
    madeBy unique done (Function.update thread t pc) = done pc := by
  rw [mine, madeBy, Function.update_self]

/-- A step that calls nothing. -/
theorem madeBy_update (same : unique = some t -> done pc = done (thread t)) :
    madeBy unique done (Function.update thread t pc) = madeBy unique done thread := by
  cases unique with
  | none => rfl
  | some u =>
      by_cases mine : u = t
      · rw [mine] at same ⊢
        rw [madeBy, madeBy, Function.update_self, same rfl]
      · rw [madeBy, madeBy, Function.update_of_ne mine]

end update

variable [Fintype Tid] {Lock : Type} {params : BenchParams} {base : Nat}
  {serialBy : Nat -> Option Tid} {s : Machine Tid (WithLock Lock RunnerData) (RunnerPc Body)}
  {t : Tid} {pc : RunnerPc Body}

/-- A thread that has not come to the third round: nobody has been unique in it. -/
theorem Inv.nobody_finishes (inv : Inv params base serialBy s)
    (before : (visit base (s.thread t)).arrived ≤ base + 2) : serialBy (base + 2) = none := by
  refine Option.eq_none_iff_forall_ne_some.mpr fun u served => ?_
  have past := inv.serves.serial_departed _ _ served
  have close := inv.serves.close u t
  omega

/-- Nobody is in the third round, or in the first, when a thread is in the benchmark. -/
theorem Inv.during (inv : Inv params base serialBy s) {body : Body}
    (inside : s.thread t = .bench body) : s.shared.data.calls = setupCalls params := by
  have here : visit base (s.thread t) = ⟨base + 2, false⟩ := congrArg (visit base) inside
  have passed : forall u, base + 2 ≤ (visit base (s.thread u)).arrived := by
    intro u
    have close := inv.serves.close t u
    rwa [here] at close
  have finishing : serialBy (base + 2) = none :=
    inv.nobody_finishes (t := t) (by rw [here]; exact Nat.le_refl _)
  have served : (serialBy base).isSome = true := by
    rw [← inv.serves.serial]
    refine inv.serves.last_serial base fun u => ?_
    have come := passed u
    have one := Bool.toNat_le (visit base (s.thread u)).waiting
    rw [Barrier.Visit.arrived] at come
    omega
  rcases Option.isSome_iff_exists.mp served with ⟨u, unique⟩
  have come := passed u
  rw [inv.calls, finishing, unique]
  show setupDone params (s.thread u) ++ [] = setupCalls params
  rw [List.append_nil]
  generalize s.thread u = pc at come
  cases pc <;> try rfl
  case arrive call =>
    cases call <;> try rfl
    simp [visit, Barrier.Visit.arrived, BarrierCall.index] at come
  case wait call round =>
    cases call <;> try rfl
    simp [visit, Barrier.Visit.arrived, BarrierCall.index] at come
  all_goals simp [visit, Barrier.Visit.arrived] at come

/-- When all threads have returned, both unique threads have made their calls. -/
theorem Inv.after [Nonempty Tid] (inv : Inv params base serialBy s)
    (returned : forall t, s.thread t = .returned) :
    s.shared.data.calls = setupCalls params ++ finishCalls params := by
  have passed : forall t, visit base (s.thread t) = ⟨base + 3, false⟩ :=
    fun t => congrArg (visit base) (returned t)
  have served : forall round, round < base + 3 -> exists t, serialBy round = some t := by
    intro round early
    rw [← Option.isSome_iff_exists, ← inv.serves.serial]
    refine inv.serves.last_serial round fun t => ?_
    rw [passed]
    exact early
  rcases served base (by omega) with ⟨t, first⟩
  rcases served (base + 2) (by omega) with ⟨u, last⟩
  rw [inv.calls, first, last, madeBy, madeBy, returned, returned]
  rfl

/-! ## The steps -/

omit [Fintype Tid] in
theorem At.congr {serialBy' : Nat -> Option Tid} {pc : RunnerPc Body}
    (same : forall round, serialBy' round = some t <-> serialBy round = some t)
    (place : At base serialBy t pc) : At base serialBy' t pc := by
  cases pc <;> simp only [At, same] at place ⊢ <;> exact place

variable [DecidableEq Tid]

/-- One thread moves. -/
theorem Inv.update {serialBy' : Nat -> Option Tid} {lock : Lock} {data : RunnerData}
    (serves : data.barrier.Serves
      (Function.update (fun u => visit base (s.thread u)) t (visit base pc)) serialBy')
    (calls : data.calls =
      madeBy (serialBy' base) (setupDone params) (Function.update s.thread t pc) ++
        madeBy (serialBy' (base + 2)) (finishDone params) (Function.update s.thread t pc))
    (here : At base serialBy' t pc) (there : forall u, u ≠ t -> At base serialBy' u (s.thread u)) :
    Inv params base serialBy' ⟨⟨lock, data⟩, Function.update s.thread t pc⟩ where
  serves := by
    have same := Function.comp_update (visit base) s.thread t pc
    exact Eq.subst (motive := fun visits => data.barrier.Serves visits serialBy') same.symm serves
  calls := calls
  places := (Function.forall_update_iff s.thread fun u pc => At base serialBy' u pc).mpr
    ⟨here, there⟩

/-- A step between two calls of the barrier. -/
theorem Inv.between (inv : Inv params base serialBy s) {lock : Lock} {data : RunnerData}
    (barrier : data.barrier = s.shared.data.barrier)
    (calls : data.calls =
      madeBy (serialBy base) (setupDone params) (Function.update s.thread t pc) ++
        madeBy (serialBy (base + 2)) (finishDone params) (Function.update s.thread t pc))
    (here : At base serialBy t pc) (stays : visit base pc = visit base (s.thread t)) :
    Inv params base serialBy ⟨⟨lock, data⟩, Function.update s.thread t pc⟩ := by
  refine Inv.update ?_ calls here fun u _ => inv.places u
  rw [barrier, stays, Function.update_eq_self]
  exact inv.serves

/-- A step that calls nothing. -/
theorem Inv.quiet (inv : Inv params base serialBy s) {lock : Lock} {data : RunnerData}
    (barrier : data.barrier = s.shared.data.barrier) (calls : data.calls = s.shared.data.calls)
    (here : At base serialBy t pc) (stays : visit base pc = visit base (s.thread t))
    (setup : setupDone params pc = setupDone params (s.thread t))
    (finish : finishDone params pc = finishDone params (s.thread t)) :
    Inv params base serialBy ⟨⟨lock, data⟩, Function.update s.thread t pc⟩ := by
  refine inv.between barrier ?_ here stays
  rw [madeBy_update fun _ => setup, madeBy_update fun _ => finish, calls, inv.calls]

theorem Inv.arrive (inv : Inv params base serialBy s) {lock : Lock} {call : BarrierCall}
    (here : s.thread t = .arrive call) :
    Inv params base serialBy
      ⟨⟨lock, { s.shared.data with barrier := s.shared.data.barrier.arrive.1 }⟩,
        Function.update s.thread t (.wait call s.shared.data.barrier.arrive.2)⟩ := by
  have visits : visit base (s.thread t) = ⟨base + BarrierCall.index call, false⟩ :=
    congrArg (visit base) here
  have outside : (visit base (s.thread t)).waiting = false := by rw [visits]
  refine Inv.update ?_ ?_ ?_ fun u _ => inv.places u
  · have serves := inv.serves.arrive outside
    rwa [visits] at serves
  · rw [madeBy_update, madeBy_update]
    · exact inv.calls
    · intro _
      rw [here]
      rfl
    · intro _
      rw [here]
      cases call <;> rfl
  · exact (inv.serves.round_eq outside).trans (congrArg Barrier.Visit.departed visits)

theorem visit_afterBarrier (start : Body) (isUnique : Bool) (call : BarrierCall) :
    visit base (afterBarrier params start isUnique call) =
      ⟨base + BarrierCall.index call + 1, false⟩ := by
  cases call <;> cases isUnique <;> rfl

/-- The thread that leaves a round has called nothing in it. -/
theorem madeBy_serialAfter {b : Barrier} {visits : Tid -> Barrier.Visit} {round : Nat}
    {isUnique : Bool} {done : RunnerPc Body -> List RunnerCall} {thread : Tid -> RunnerPc Body}
    (serves : b.Serves visits serialBy) (departed : (visits t).departed = round)
    (may : b.mayDepart round isUnique = true) (nothing : isUnique = true -> done pc = []) :
    madeBy (Barrier.Serves.serialAfter serialBy round t isUnique round) done
        (Function.update thread t pc) = madeBy (serialBy round) done thread := by
  cases isUnique with
  | true =>
      have mine : Barrier.Serves.serialAfter serialBy round t true round = some t :=
        Function.update_self ..
      rw [serves.unserved may, madeBy_self mine, nothing rfl]
      rfl
  | false =>
      refine madeBy_update fun mine => absurd (serves.serial_departed round t mine) ?_
      rw [departed]
      exact Nat.lt_irrefl round

theorem Inv.depart (inv : Inv params base serialBy s) {lock : Lock} {call : BarrierCall}
    {round : Nat} {isUnique : Bool} {start : Body} (here : s.thread t = .wait call round)
    (may : s.shared.data.barrier.mayDepart round isUnique = true) :
    Inv params base (Barrier.Serves.serialAfter serialBy round t isUnique)
      ⟨⟨lock, { s.shared.data with barrier := s.shared.data.barrier.depart round isUnique }⟩,
        Function.update s.thread t (afterBarrier params start isUnique call)⟩ := by
  have visits : visit base (s.thread t) = ⟨base + BarrierCall.index call, true⟩ :=
    congrArg (visit base) here
  have place := inv.places t
  rw [here] at place
  rcases (place : round = base + BarrierCall.index call) with rfl
  have departed : (visit base (s.thread t)).departed = base + BarrierCall.index call :=
    congrArg Barrier.Visit.departed visits
  have mine : Barrier.Serves.serialAfter serialBy (base + BarrierCall.index call) t isUnique
      (base + BarrierCall.index call) = some t <-> isUnique = true := by
    rw [← departed]
    exact inv.serves.serialAfter_self
  -- Only the round that is left can get a unique thread.
  have setup : madeBy (Barrier.Serves.serialAfter serialBy (base + BarrierCall.index call) t isUnique
      base) (setupDone params) (Function.update s.thread t (afterBarrier params start isUnique call)) =
        madeBy (serialBy base) (setupDone params) s.thread := by
    cases call with
    | setup => exact madeBy_serialAfter inv.serves departed may fun unique => by rw [unique]; rfl
    | start =>
        have other : base ≠ base + BarrierCall.index .start := by simp [BarrierCall.index]
        rw [Barrier.Serves.serialAfter_of_ne other, madeBy_update fun _ => by rw [here]; rfl]
    | finish =>
        have other : base ≠ base + BarrierCall.index .finish := by simp [BarrierCall.index]
        rw [Barrier.Serves.serialAfter_of_ne other,
          madeBy_update fun _ => by rw [here]; cases isUnique <;> rfl]
  have finish : madeBy (Barrier.Serves.serialAfter serialBy (base + BarrierCall.index call) t isUnique
      (base + 2)) (finishDone params)
        (Function.update s.thread t (afterBarrier params start isUnique call)) =
          madeBy (serialBy (base + 2)) (finishDone params) s.thread := by
    cases call with
    | setup =>
        have other : base + 2 ≠ base + BarrierCall.index .setup := by simp [BarrierCall.index]
        rw [Barrier.Serves.serialAfter_of_ne other,
          madeBy_update fun _ => by rw [here]; cases isUnique <;> rfl]
    | start =>
        have other : base + 2 ≠ base + BarrierCall.index .start := by simp [BarrierCall.index]
        rw [Barrier.Serves.serialAfter_of_ne other, madeBy_update fun _ => by rw [here]; rfl]
    | finish => exact madeBy_serialAfter inv.serves departed may fun unique => by rw [unique]; rfl
  refine Inv.update ?_ ?_ ?_ fun u other => (inv.places u).congr fun _ =>
    inv.serves.serialAfter_other may other
  · have serves := inv.serves.depart (congrArg Barrier.Visit.waiting visits) (departed.symm ▸ may)
    rw [departed] at serves
    rw [visit_afterBarrier]
    exact serves
  · show s.shared.data.calls = _
    rw [setup, finish]
    exact inv.calls
  · cases call <;> cases isUnique
    case setup.false => exact mine.symm
    case setup.true => exact ⟨rfl, mine.mpr rfl⟩
    case start.false => trivial
    case start.true => trivial
    case finish.false => exact mine.symm
    case finish.true => exact ⟨rfl, mine.mpr rfl⟩

/-- A thread before the benchmark calls something. -/
theorem Inv.setup_calls (inv : Inv params base serialBy s) {lock : Lock} {made : List RunnerCall}
    (early : visit base (s.thread t) = ⟨base + 1, false⟩)
    (stays : visit base pc = visit base (s.thread t)) (here : At base serialBy t pc)
    (mine : serialBy base = some t -> setupDone params pc = setupDone params (s.thread t) ++ made)
    (notMine : serialBy base ≠ some t -> made = []) :
    Inv params base serialBy ⟨⟨lock, { s.shared.data with calls := s.shared.data.calls ++ made }⟩,
      Function.update s.thread t pc⟩ := by
  refine inv.between rfl ?_ here stays
  have nobody : serialBy (base + 2) = none := by
    refine inv.nobody_finishes (t := t) ?_
    rw [early]
    exact Nat.le_succ _
  have calls := inv.calls
  rw [nobody, madeBy, List.append_nil] at calls
  rw [nobody, madeBy, List.append_nil]
  show s.shared.data.calls ++ made = _
  by_cases unique : serialBy base = some t
  · rw [madeBy_self unique, mine unique, calls, unique]
    rfl
  · rw [madeBy_update fun served => absurd served unique, calls, notMine unique, List.append_nil]

/-- A thread after the benchmark calls something. -/
theorem Inv.finish_calls (inv : Inv params base serialBy s) {lock : Lock} {made : List RunnerCall}
    (stays : visit base pc = visit base (s.thread t)) (here : At base serialBy t pc)
    (setup : setupDone params pc = setupDone params (s.thread t))
    (mine : serialBy (base + 2) = some t ->
      finishDone params pc = finishDone params (s.thread t) ++ made)
    (notMine : serialBy (base + 2) ≠ some t -> made = []) :
    Inv params base serialBy ⟨⟨lock, { s.shared.data with calls := s.shared.data.calls ++ made }⟩,
      Function.update s.thread t pc⟩ := by
  refine inv.between rfl ?_ here stays
  rw [madeBy_update fun _ => setup]
  show s.shared.data.calls ++ made = _
  rw [inv.calls, List.append_assoc]
  congr 1
  by_cases unique : serialBy (base + 2) = some t
  · rw [madeBy_self unique, mine unique, unique]
    rfl
  · rw [madeBy_update fun served => absurd served unique, notMine unique, List.append_nil]

variable {Event : Type} [DecidableEq Body] {bench : Bench Tid Body Event} {t : Tid}
  {isUnique : Bool} {data : RunnerData} {event : RunnerEvent Event}

theorem Inv.compute (inv : Inv params base serialBy s) {lock : Lock}
    (computed : compute params bench t isUnique s.shared.data (s.thread t) =
      some (data, pc, event)) :
    exists serialBy', Inv params base serialBy' ⟨⟨lock, data⟩, Function.update s.thread t pc⟩ := by
  have place := inv.places t
  generalize here : s.thread t = old at computed place
  cases old <;> simp only [BenchRunner.compute, reduceCtorEq] at computed
  case arrive call =>
    cases computed
    exact ⟨serialBy, inv.arrive here⟩
  case wait call round =>
    split at computed <;> cases computed
    next may => exact ⟨_, inv.depart here may⟩
  case initLock i =>
    rcases place with ⟨rfl, unique⟩
    cases computed
    refine ⟨serialBy, inv.setup_calls ?_ ?_ ?_ ?_ ?_⟩
    · rw [here]
      rfl
    · rw [here]
      rfl
    · exact iff_of_true rfl unique
    · rw [here]
      exact fun _ => rfl
    · exact fun other => absurd unique other
  case startStats unique =>
    cases computed
    refine ⟨serialBy, inv.setup_calls ?_ ?_ ?_ ?_ ?_⟩
    · rw [here]
      rfl
    · rw [here]
      rfl
    · trivial
    · rw [here]
      intro mine
      simp only [place.mpr mine, and_true]
      rfl
    · intro other
      simp [mt place.mp other]
  case bench body =>
    have quiet : forall {data : RunnerData} {pc : RunnerPc Body},
        data.barrier = s.shared.data.barrier -> data.calls = s.shared.data.calls ->
        visit base pc = ⟨base + 2, false⟩ -> setupDone params pc = setupCalls params ->
        finishDone params pc = [] -> At base serialBy t pc ->
        Inv params base serialBy ⟨⟨lock, data⟩, Function.update s.thread t pc⟩ :=
      fun barrier calls visits setup finish at_pc => inv.quiet barrier calls at_pc
        (by rw [here, visits]; rfl) (by rw [here, setup]; rfl) (by rw [here, finish]; rfl)
    split at computed
    · cases computed
      exact ⟨serialBy, quiet rfl rfl rfl rfl rfl trivial⟩
    · rcases Option.map_eq_some_iff.mp computed with ⟨⟨n, body', event'⟩, -, result⟩
      cases result
      exact ⟨serialBy, quiet rfl rfl rfl rfl rfl trivial⟩
  case destroyLock i =>
    rcases place with ⟨rfl, unique⟩
    cases computed
    refine ⟨serialBy, inv.finish_calls ?_ ?_ ?_ ?_ ?_⟩
    · rw [here]
      rfl
    · exact iff_of_true rfl unique
    · rw [here]
      rfl
    · rw [here]
      exact fun _ => rfl
    · exact fun other => absurd unique other
  case statsOut unique =>
    cases computed
    refine ⟨serialBy, inv.finish_calls ?_ ?_ ?_ ?_ ?_⟩
    · rw [here]
      rfl
    · trivial
    · rw [here]
      rfl
    · rw [here]
      intro mine
      simp only [place.mpr mine, and_true]
      rfl
    · intro other
      simp [mt place.mp other]

omit [DecidableEq Body] in
/-- A call of the lock is one of the benchmark. -/
theorem Inv.call (inv : Inv params base serialBy s) {lock : Lock} {body body' : Body}
    (here : s.thread t = .bench body) :
    Inv params base serialBy ⟨⟨lock, s.shared.data⟩, Function.update s.thread t (.bench body')⟩ :=
  inv.quiet rfl rfl trivial (by rw [here]; rfl) (by rw [here]; rfl) (by rw [here]; rfl)

theorem Inv.moves {s s' : Machine Tid (WithLock (Option Tid) RunnerData) (RunnerPc Body)}
    (inv : Inv params base serialBy s) (moves : (client params bench).Moves s t event s') :
    exists serialBy', Inv params base serialBy' s' := by
  cases moves with
  | lock pc intends free =>
      generalize here : s.thread t = old at intends
      cases old <;> try cases intends
      case bench body =>
        rcases lock_of_benchIntent intends with ⟨body', event', -, rfl, -⟩
        exact ⟨serialBy, inv.call here⟩
  | unlock pc intends =>
      generalize here : s.thread t = old at intends
      cases old <;> try cases intends
      case bench body =>
        rcases unlock_of_benchIntent intends with ⟨body', event', -, rfl, -⟩
        exact ⟨serialBy, inv.call here⟩
  | compute isUnique data pc intends computed => exact inv.compute computed

omit [DecidableEq Tid] [DecidableEq Body] in
theorem inv_start {barrier : Barrier}
    (rests : exists serialBy, barrier.Serves (fun _ : Tid => ⟨base, false⟩) serialBy) :
    exists serialBy, Inv params base serialBy
      (⟨⟨none, reset barrier⟩, fun _ => .arrive .setup⟩ :
        Machine Tid (WithLock (Option Tid) RunnerData) (RunnerPc Body)) := by
  rcases rests with ⟨serialBy, serves⟩
  have none_before : forall round, base ≤ round -> serialBy round = none := by
    intro round later
    refine Option.eq_none_iff_forall_ne_some.mpr fun t served => ?_
    exact absurd (serves.serial_departed round t served) (Nat.not_lt_of_le later)
  refine ⟨serialBy, serves, ?_, fun _ => trivial⟩
  rw [none_before base (Nat.le_refl base), none_before (base + 2) (Nat.le_add_right base 2)]
  rfl

theorem inv_of_run {barrier : Barrier}
    (rests : exists serialBy, barrier.Serves (fun _ : Tid => ⟨base, false⟩) serialBy)
    {trace : List (Tid × RunnerEvent Event)}
    {s : Machine Tid (WithLock (Option Tid) RunnerData) (RunnerPc Body)}
    (run : ((client params bench).overMutex.system
      (LockClient.startsOver (reset barrier) fun _ => .arrive .setup)).Run
        TransitionSystem.unguarded trace s) :
    exists serialBy, Inv params base serialBy s := by
  refine run.invariant (fun _ s => exists serialBy, Inv params base serialBy s) ?_ ?_
  · rintro s rfl
    exact inv_start rests
  · rintro _ s label s' ⟨serialBy, inv⟩ moved _
    exact inv.moves (LockClient.moves_of_next moved)

omit [DecidableEq Tid] [DecidableEq Body] in
/-- The barrier is left as the next trial needs it. -/
theorem Inv.rests (inv : Inv params base serialBy s) (returned : forall t, s.thread t = .returned) :
    exists serialBy, s.shared.data.barrier.Serves (fun _ : Tid => ⟨base + 3, false⟩) serialBy := by
  have passed : (fun t => visit base (s.thread t)) = fun _ => ⟨base + 3, false⟩ :=
    funext fun t => congrArg (visit base) (returned t)
  exact ⟨serialBy, passed ▸ inv.serves⟩

/-! ## All trials over any lock -/

/-- What a state of a trial has to satisfy: while a thread is in a call of the
lock or holds it, the lock has been set up once and not been taken down. -/
structure Orderly {Lock LockLocal : Type} (params : BenchParams) (phase : LockLocal -> Option CallPhase)
    (s : Machine Tid (WithLock Lock RunnerData) (LockLocal × RunnerPc Body)) : Prop where
  inUse : forall t, phase (s.thread t).1 ≠ some .idle -> s.shared.data.calls = setupCalls params
  after : (forall t, (s.thread t).2 = .returned) ->
    s.shared.data.calls = setupCalls params ++ finishCalls params
  counted : (forall t, (s.thread t).2 = .returned) -> s.shared.data.globalState =
    getExpectedCount params.numThreads params.outerIter params.csIter params.benchType

section trials

variable {Lock LockLocal LockAction LockEvent : Type}
  {lock : LockProgram Tid Lock LockLocal LockAction LockEvent} {barrier : Barrier}

omit [Fintype Tid] in
/-- A trial over a lock is explained by one over the specification. -/
theorem explained {trace : List _} {s : Machine Tid (WithLock Lock RunnerData) (LockLocal × _)}
    (run : (trial params lock barrier).Run TransitionSystem.unguarded trace s) :
    exists labels a, ((client params (params.bench Tid params.benchType)).overMutex.system
        (LockClient.startsOver (reset barrier) fun _ => .arrive .setup)).Run
          TransitionSystem.unguarded labels a ∧
      LockClient.Explains (client params (params.bench Tid params.benchType)) lock a s := by
  rcases (LockClient.overLock_refines _ lock _ _).run run with ⟨a, abstract, explains⟩
  exact ⟨_, a, abstract, explains⟩

theorem rests_beforeTrial [Nonempty Tid] (threads : params.numThreads.toNat = Fintype.card Tid)
    {k : Nat} (before : BeforeTrial params lock k barrier) :
    exists serialBy, barrier.Serves (fun _ : Tid => ⟨3 * k, false⟩) serialBy := by
  induction before with
  | first =>
      rw [threads]
      exact ⟨_, Barrier.Serves.initially⟩
  | next _ run joined inductionHypothesis =>
      rcases explained run with ⟨labels, a, abstract, explains⟩
      rcases inv_of_run inductionHypothesis abstract with ⟨serialBy, inv⟩
      rw [← explains.data]
      exact inv.rests fun t => (explains.thread t).trans (joined t)

/-- Every state of every trial is orderly. -/
theorem trial_orderly (params : BenchParams)
    (lock : LockProgram Tid Lock LockLocal LockAction LockEvent)
    (threads : params.numThreads.toNat = Fintype.card Tid) (some : params.numThreads ≠ 0)
    (rounds : params.benchType = .perThreadWork -> params.outerIter ≠ 0) {k : Nat}
    (before : BeforeTrial params lock k barrier) {trace : List _}
    {s : Machine Tid (WithLock Lock RunnerData) (LockLocal × _)}
    (run : (trial params lock barrier).Run TransitionSystem.unguarded trace s) :
    Orderly params lock.phase s := by
  have somebody : Nonempty Tid := by
    rw [← Fintype.card_pos_iff, ← threads]
    exact Nat.pos_of_ne_zero fun zero => some (UInt32.toNat_inj.mp zero)
  have free : ¬BenchHolds params.benchType (params.bench Tid params.benchType).left :=
    params.not_holds_left _
  have covers : (client params (params.bench Tid params.benchType)).Covers
    (Holds (BenchHolds params.benchType)) Inside := client_covers free
  rcases explained run with ⟨labels, a, abstract, explains⟩
  rcases inv_of_run (rests_beforeTrial threads before) abstract with ⟨serialBy, inv⟩
  constructor
  case inUse =>
    intro t busy
    rcases LockClient.matches_of_run
      (client_brackets (params.bench_brackets _) (params.not_holds_start _) free) covers
      (fun _ => id) run t with ⟨phase, atPhase, here⟩
    rw [atPhase] at busy
    rcases here.within covers fun idle => busy (congrArg _ idle) with ⟨body, inside⟩
    rw [← explains.data]
    exact inv.during ((explains.thread t).trans inside)
  case after =>
    intro returned
    rw [← explains.data]
    exact inv.after fun t => (explains.thread t).trans (returned t)
  case counted =>
    intro returned
    rcases (refines_bench _ _ _).run abstract with ⟨inner, benchRun, rfl⟩
    rw [← explains.data]
    refine params.bench_expected threads params.benchType rounds benchRun fun t => ?_
    show bodyOf _ (a.thread t) = _
    rw [explains.thread t, returned t]
    rfl

end trials

section once

/-- The base lock without any of its features. -/
def spinlock : LockBaseConfig := ⟨false, false, false, false, false⟩

/-- One thread takes the lock once and adds two. -/
def onceParams : BenchParams where
  withSchedStats := 1
  outerIter := 1
  csIter := 2
  extraIter := 0
  contentionMask := 0
  benchType := .perThreadWork
  numThreads := 1

abbrev onceProgram :=
  (client onceParams (onceParams.bench Unit onceParams.benchType)).overLock
    (LockBase.lockProgram Unit spinlock)

def onceStart : Machine Unit (WithLock (UserLockBase Unit) RunnerData)
    (LockBaseThread × RunnerPc PerThreadWorkPc) where
  shared := ⟨(LockBase.fresh Unit spinlock).shared, reset (Barrier.init 1)⟩
  thread := fun t => ((LockBase.fresh Unit spinlock).thread t, .arrive .setup)

/-- The whole trial: up to the lock, into it, two times a load and a store, out
of it, and to the end. -/
def onceActions : List (LockBaseAction Unit ⊕ Bool) :=
  List.replicate 6 (.inr true) ++ [.inl .callLock, .inl .run, .inl .run] ++
    List.replicate 4 (.inr true) ++ [.inl .callUnlock, .inl .run] ++ List.replicate 5 (.inr true)

def onceSchedule : List (Unit × (LockBaseAction Unit ⊕ Bool)) :=
  onceActions.map fun action => ((), action)

theorem trial_orderly_once : exists trace s,
    (trial onceParams (LockBase.lockProgram Unit spinlock) (Barrier.init 1)).Run
        TransitionSystem.unguarded trace s ∧
      (forall t, (s.thread t).2 = .returned) ∧
      Orderly onceParams (LockBase.lockProgram Unit spinlock).phase s := by
  have starts : LockClient.startsOn (LockBase.lockProgram Unit spinlock) (reset (Barrier.init 1))
      (fun _ => .arrive .setup) onceStart := ⟨LockBase.fresh_init spinlock, rfl, fun _ => rfl⟩
  have run : (trial onceParams (LockBase.lockProgram Unit spinlock) (Barrier.init 1)).Run
      TransitionSystem.unguarded _ (onceProgram.play onceSchedule onceStart).1 :=
    Program.run_play starts onceSchedule (by decide +kernel)
  exact ⟨_, _, run, by decide +kernel, trial_orderly onceParams _ rfl (by decide)
    (fun _ => by decide) .first run⟩

end once

end BenchRunner

end Runner
end Autolock
