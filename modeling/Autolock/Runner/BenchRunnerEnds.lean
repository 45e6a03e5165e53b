import Autolock.Runner.BenchRunnerSafety
import Mathlib.Data.Finset.Max

namespace Autolock
namespace Runner

open Concurrency UserLocks

/-!
# That every trial ends

Over a lock that lets a caller in whenever it is free, every step brings a trial
closer to its end, whoever takes it.  In the benchmark of total work this
is so because each chunk brings the counter closer to the total, even if it has
to go around first.  A trial in which no step is left has ended.
-/

/-! ## The benchmark of work per thread -/

namespace PerThreadWork

variable {p : PerThreadWork} {outer i : UInt32}

/-- The steps of one round. -/
def roundSteps (p : PerThreadWork) : Nat := 2 * p.csIter.toNat + p.extraIter.toNat + 2

/-- The steps that a thread has before it. -/
def stepsLeft (p : PerThreadWork) : PerThreadWorkPc -> Nat
  | .lock outer => outer.toNat * p.roundSteps
  | .csLoad outer i => (outer.toNat - 1) * p.roundSteps + (p.extraIter.toNat + 2 * i.toNat + 1)
  | .csStore outer i _ => (outer.toNat - 1) * p.roundSteps + (p.extraIter.toNat + 2 * i.toNat)
  | .unlock outer => (outer.toNat - 1) * p.roundSteps + (p.extraIter.toNat + 1)
  | .extraWork outer i => (outer.toNat - 1) * p.roundSteps + i.toNat
  | .left => 0

theorem stepsLeft_csLoop : p.stepsLeft (csLoop outer i) =
    (outer.toNat - 1) * p.roundSteps + (p.extraIter.toNat + 2 * i.toNat + 1) := by
  unfold csLoop
  split
  · next zero =>
      rw [zero]
      rfl
  · rfl

theorem stepsLeft_extraLoop (rounds : outer ≠ 0) :
    p.stepsLeft (extraLoop outer i) = (outer.toNat - 1) * p.roundSteps + i.toNat := by
  have fewer : (outer - 1).toNat = outer.toNat - 1 := Nat.eq_sub_of_add_eq (toNat_sub_one rounds)
  unfold extraLoop outerLoop
  split
  · next zero =>
      rw [zero]
      split
      · next last =>
          rw [← fewer, last]
          exact (Nat.zero_mul _).symm
      · rw [stepsLeft, fewer]
        rfl
  · rfl

variable {Tid : Type} [DecidableEq Tid] [Fintype Tid]
  {s s' : Machine Tid (WithLock (Option Tid) UInt64) PerThreadWorkPc} {t : Tid}

/-- Every step is one step less. -/
theorem Inv.stepsLeft_moves (inv : Inv p s) {event : Unit}
    (moves : (p.client Tid).Moves s t event s') :
    exists shared pc, s' = ⟨shared, Function.update s.thread t pc⟩ ∧
      p.stepsLeft pc < p.stepsLeft (s.thread t) := by
  have place := inv.places t
  cases moves with
  | lock pc intends free =>
      refine ⟨_, pc, rfl, ?_⟩
      generalize s.thread t = old at intends place
      cases old <;> cases intends
      case lock outer =>
        have whole : outer.toNat * p.roundSteps =
            (outer.toNat - 1) * p.roundSteps + p.roundSteps := by
          rw [← Nat.succ_mul, Nat.succ_eq_add_one,
            Nat.sub_add_cancel (Nat.pos_of_ne_zero fun zero => place (UInt32.toNat_inj.mp zero))]
        have size : p.roundSteps = 2 * p.csIter.toNat + p.extraIter.toNat + 2 := rfl
        rw [stepsLeft_csLoop, stepsLeft, whole]
        omega
  | unlock pc intends =>
      refine ⟨_, pc, rfl, ?_⟩
      generalize s.thread t = old at intends place
      cases old <;> cases intends
      case unlock outer =>
        rw [stepsLeft_extraLoop place, stepsLeft]
        omega
  | compute choice n pc intends computed =>
      refine ⟨_, pc, rfl, ?_⟩
      generalize s.thread t = old at intends place computed
      cases old <;> cases intends <;> cases computed
      case compute.csLoad.refl.refl outer i =>
        rw [stepsLeft, stepsLeft]
        omega
      case compute.csStore.refl.refl outer i value =>
        have one := toNat_sub_one place.2.1
        rw [stepsLeft_csLoop, stepsLeft]
        omega
      case compute.extraWork.refl.refl outer i =>
        have one := toNat_sub_one place.2
        rw [stepsLeft_extraLoop place.1, stepsLeft]
        omega

/-- The invariant, and the steps of all threads. -/
def Ranked (p : PerThreadWork) (s : Machine Tid (WithLock (Option Tid) UInt64) PerThreadWorkPc)
    (rank : Nat) : Prop :=
  Inv p s ∧ rank = ∑ t, p.stepsLeft (s.thread t)

theorem Ranked.moves {rank : Nat} (ranked : Ranked p s rank) {event : Unit}
    (moves : (p.client Tid).Moves s t event s') : exists rank', rank' < rank ∧ Ranked p s' rank' := by
  rcases ranked with ⟨inv, rfl⟩
  have kept := inv.moves moves
  rcases inv.stepsLeft_moves moves with ⟨shared, pc, rfl, less⟩
  refine ⟨_, ?_, kept, rfl⟩
  have sum := sum_update p.stepsLeft s.thread t pc
  show (∑ u, p.stepsLeft (Function.update s.thread t pc u)) < _
  omega

end PerThreadWork

/-! ## The benchmark of total work -/

namespace TotalWork

variable {p : TotalWork} {i : UInt32}

/-- The steps of one round, and some more. -/
def roundSteps (p : TotalWork) : Nat := 2 * p.csIter.toNat + p.extraIter.toNat + 4

/-- The steps that a thread has before it if it does not add another chunk. -/
def stepsLeft (p : TotalWork) : TotalWorkPc -> Nat
  | .lock => 3
  | .loadGlobalState => 2
  | .csLoad i => p.extraIter.toNat + 2 * i.toNat + 4
  | .csStore i _ => p.extraIter.toNat + 2 * i.toNat + 3
  | .unlock => p.extraIter.toNat + 4
  | .extraWork i => i.toNat + 3
  | .unlockBreak => 1
  | .left => 0

/-- What is left of the chunk that the thread is adding. -/
def pending : TotalWorkPc -> Nat
  | .csLoad i | .csStore i _ => i.toNat
  | _ => 0

theorem stepsLeft_csLoop : p.stepsLeft (csLoop i) = p.extraIter.toNat + 2 * i.toNat + 4 := by
  unfold csLoop
  split
  · next zero =>
      rw [zero]
      rfl
  · rfl

theorem stepsLeft_extraLoop : p.stepsLeft (extraLoop i) = i.toNat + 3 := by
  unfold extraLoop
  split
  · next zero =>
      rw [zero]
      rfl
  · rfl

theorem pending_csLoop : pending (csLoop i) = i.toNat := by
  unfold csLoop
  split
  · next zero =>
      rw [zero]
      rfl
  · rfl

theorem pending_extraLoop : pending (extraLoop i) = 0 := by
  unfold extraLoop
  split <;> rfl

theorem pending_of_not_holds {pc : TotalWorkPc} (idle : ¬Holds pc) : pending pc = 0 := by
  cases pc
  case csLoad => exact absurd trivial idle
  case csStore => exact absurd trivial idle
  all_goals rfl

/-- The loop outside has iterations left. -/
def Loops : TotalWorkPc -> Prop
  | .extraWork i => i ≠ 0
  | _ => True

theorem loops_csLoop : Loops (csLoop i) := by
  unfold csLoop
  split <;> trivial

theorem loops_extraLoop : Loops (extraLoop i) := by
  unfold extraLoop
  split
  · trivial
  · next nonzero => exact nonzero

variable {Tid : Type} [DecidableEq Tid] [Fintype Tid]
  {s s' : Machine Tid (BenchShared Tid) TotalWorkPc} {t : Tid} {k rank : Nat}

/-- When the chunk that is being added is whole, the total is so many chunks away. -/
def Missing (p : TotalWork) (k : Nat) (s : Machine Tid (BenchShared Tid) TotalWorkPc) : Prop :=
  s.shared.globalState + UInt64.ofNat (∑ t, pending (s.thread t)) +
    UInt64.ofNat (k * p.csIter.toNat) = p.totalIter.toUInt64

/-- The steps to the end, if the missing chunks are added. -/
def Ranked (p : TotalWork) (s : Machine Tid (BenchShared Tid) TotalWorkPc) (rank : Nat) : Prop :=
  Inv p s ∧ (forall t, Loops (s.thread t)) ∧
    exists k, Missing p k s ∧ rank = k * p.roundSteps + ∑ t, p.stepsLeft (s.thread t)

/-- A step after which the same total is reached, and sooner. -/
theorem ranked_update {shared : BenchShared Tid} {pc : TotalWorkPc} {k' : Nat}
    (loops : forall t, Loops (s.thread t)) (missing : Missing p k s)
    (inv : Inv p ⟨shared, Function.update s.thread t pc⟩) (here : Loops pc)
    (kept : shared.globalState + UInt64.ofNat (pending pc) + UInt64.ofNat (k' * p.csIter.toNat) =
      s.shared.globalState + UInt64.ofNat (pending (s.thread t)) +
        UInt64.ofNat (k * p.csIter.toNat))
    (less : k' * p.roundSteps + p.stepsLeft pc <
      k * p.roundSteps + p.stepsLeft (s.thread t)) :
    exists rank', rank' < k * p.roundSteps + ∑ t, p.stepsLeft (s.thread t) ∧
      Ranked p ⟨shared, Function.update s.thread t pc⟩ rank' := by
  refine ⟨_, ?_, inv, ?_, k', ?_, rfl⟩
  · have sum := sum_update p.stepsLeft s.thread t pc
    show k' * p.roundSteps + (∑ u, p.stepsLeft (Function.update s.thread t pc u)) < _
    omega
  · exact (Function.forall_update_iff s.thread fun _ => Loops).mpr ⟨here, fun u _ => loops u⟩
  · have sum := congrArg UInt64.ofNat (sum_update pending s.thread t pc)
    rw [UInt64.ofNat_add, UInt64.ofNat_add] at sum
    rw [Missing] at missing ⊢
    show shared.globalState + UInt64.ofNat (∑ u, pending (Function.update s.thread t pc u)) + _ = _
    grind

theorem Ranked.step (ranked : Ranked p s rank) {shared : BenchShared Tid} {pc : TotalWorkPc}
    {event : TotalWorkEvent}
    (stepped : p.step t s.shared (s.thread t) = some (shared, pc, event)) :
    exists rank', rank' < rank ∧ Ranked p ⟨shared, Function.update s.thread t pc⟩ rank' := by
  rcases ranked with ⟨inv, loops, k, missing, rfl⟩
  have kept := inv.step stepped
  have update := fun k' => @ranked_update p Tid _ _ s t k shared pc k' loops missing kept
  have place := inv.places t
  have loop := loops t
  generalize here : s.thread t = old at stepped place update loop
  cases old <;> simp only [TotalWork.step] at stepped
  case lock =>
    split at stepped <;> cases stepped
    exact update k trivial rfl (Nat.lt_succ_self _)
  case loadGlobalState =>
    split at stepped
    · cases stepped
      exact update k trivial rfl (Nat.lt_succ_self _)
    · next short =>
        cases stepped
        -- Nobody adds, so that the total is some chunks away, and not none.
        have nothing : (∑ u, pending (s.thread u)) = 0 := by
          refine Finset.sum_eq_zero fun u _ => ?_
          by_cases same : u = t
          · rw [same, here]
            rfl
          · exact pending_of_not_holds (inv.alone (here.symm ▸ trivial) same)
        rw [Missing, nothing] at missing
        cases k with
        | zero =>
            rw [Nat.zero_mul] at missing
            refine absurd (decide_eq_true ?_) short
            rw [← missing]
            simp
        | succ k =>
            refine update k loops_csLoop ?_ ?_
            · have idle : pending .loadGlobalState = 0 := rfl
              rw [pending_csLoop, idle, Nat.add_one_mul, UInt64.ofNat_add]
              grind
            · have size : p.roundSteps = 2 * p.csIter.toNat + p.extraIter.toNat + 4 := rfl
              rw [stepsLeft_csLoop, stepsLeft, Nat.add_one_mul k]
              omega
  case csLoad i =>
    cases stepped
    exact update k trivial rfl (Nat.lt_succ_self _)
  case csStore i value =>
    cases stepped
    rcases place with ⟨nonzero, rfl, -⟩
    have one := toNat_sub_one nonzero
    refine update k loops_csLoop ?_ ?_
    · rw [pending_csLoop, pending, UInt64.ofNat_uInt32ToNat, UInt64.ofNat_uInt32ToNat,
        succ_add_pred _ nonzero]
    · rw [stepsLeft_csLoop, stepsLeft]
      omega
  case unlock =>
    cases stepped
    refine update k loops_extraLoop ?_ ?_
    · rw [pending_extraLoop]
      rfl
    · rw [stepsLeft_extraLoop, stepsLeft]
      omega
  case extraWork i =>
    cases stepped
    have one := toNat_sub_one loop
    refine update k loops_extraLoop ?_ ?_
    · rw [pending_extraLoop]
      rfl
    · rw [stepsLeft_extraLoop, stepsLeft]
      omega
  case unlockBreak =>
    cases stepped
    exact update k trivial rfl (Nat.lt_succ_self _)
  case left => cases stepped

omit [DecidableEq Tid] in
theorem ranked_start (total : p.Chunks p.totalIter.toUInt64) :
    exists rank, Ranked p (start Tid) rank := by
  rcases total with ⟨k, total⟩
  have nothing : (∑ t, pending ((start Tid).thread t)) = 0 := Finset.sum_eq_zero fun _ _ => rfl
  refine ⟨_, inv_start, fun _ => trivial, k, ?_, rfl⟩
  rw [Missing, nothing, total]
  simp [start]

end TotalWork

/-! ## Either benchmark -/

namespace BenchParams

variable {Tid : Type} [DecidableEq Tid] [Fintype Tid] {params : BenchParams}

/-- The counter can reach the total, or every thread has rounds to do. -/
def Ends (params : BenchParams) : BenchType -> Prop
  | .totalWork => params.csIter.toNat.gcd (2 ^ 64) ∣ params.outerIter.toNat
  | .perThreadWork => params.outerIter ≠ 0

def Ranked (params : BenchParams) : (type : BenchType) ->
    Machine Tid (WithLock (Option Tid) UInt64) (BenchPc type) -> Nat -> Prop
  | .totalWork => fun s => TotalWork.Ranked params.totalWork (TotalWork.ofClient s)
  | .perThreadWork => PerThreadWork.Ranked params.perThreadWork

omit [DecidableEq Tid] in
theorem ranked_start (type : BenchType) (ends : params.Ends type) :
    exists rank, params.Ranked type
      ⟨⟨none, 0⟩, fun _ : Tid => (params.bench Tid type).start⟩ rank := by
  cases type with
  | totalWork => exact TotalWork.ranked_start (TotalWork.chunks_total_iff.mpr ends)
  | perThreadWork => exact ⟨_, PerThreadWork.inv_start ends, rfl⟩

theorem ranked_next (type : BenchType)
    {init : Machine Tid (WithLock (Option Tid) UInt64) (BenchPc type) -> Prop}
    {s s' : Machine Tid (WithLock (Option Tid) UInt64) (BenchPc type)}
    {label : Tid × BenchEvent type} {rank : Nat} (ranked : params.Ranked type s rank)
    (moved : ((params.bench Tid type).client.overMutex.system init).next s label s') :
    exists rank', rank' < rank ∧ params.Ranked type s' rank' := by
  cases type with
  | totalWork =>
      rcases Program.system_next (TotalWork.client_next moved) with ⟨_, shared, pc, stepped, same⟩
      rcases TotalWork.Ranked.step ranked stepped with ⟨rank', less, ranked'⟩
      rw [← same] at ranked'
      exact ⟨rank', less, ranked'⟩
  | perThreadWork => exact PerThreadWork.Ranked.moves ranked (LockClient.moves_of_next moved)

omit [DecidableEq Tid] [Fintype Tid] in
/-- A thread that has not returned and does not want the lock can go on. -/
theorem goes (type : BenchType) {body : BenchPc type} (stays : body ≠ (params.bench Tid type).left)
    (intends : (params.bench Tid type).client.intent body = .compute) (t : Tid) (n : UInt64) :
    exists result, (params.bench Tid type).client.compute t () n body = some result := by
  cases type with
  | totalWork =>
      cases body <;> cases intends
      case totalWork.loadGlobalState.refl =>
        simp only [bench, TotalWork.client]
        split <;> exact ⟨_, rfl⟩
      case totalWork.left.refl => exact absurd rfl stays
      all_goals exact ⟨_, rfl⟩
  | perThreadWork =>
      cases body <;> cases intends
      case perThreadWork.left.refl => exact absurd rfl stays
      all_goals exact ⟨_, rfl⟩

end BenchParams

/-! ## The whole function -/

namespace BenchRunner

/-- The steps of a thread outside the benchmark that it has before it. -/
def stepsLeft {Body : Type} : RunnerPc Body -> Nat
  | .arrive .setup => 11
  | .wait .setup _ => 10
  | .initLock _ => 9
  | .startStats _ => 8
  | .arrive .start => 7
  | .wait .start _ => 6
  | .bench _ => 5
  | .arrive .finish => 4
  | .wait .finish _ => 3
  | .destroyLock _ => 2
  | .statsOut _ => 1
  | .returned => 0

variable {Tid Body Event : Type} [DecidableEq Body] [DecidableEq Tid] [Fintype Tid]
  {params : BenchParams} {bench : Bench Tid Body Event} {base : Nat}
  {serialBy : Nat -> Option Tid} {t : Tid} {event : RunnerEvent Event}
  {s s' : Machine Tid (WithLock (Option Tid) RunnerData) (RunnerPc Body)}

omit [DecidableEq Tid] [Fintype Tid] in
/-- Outside the benchmark every step is one step less. -/
theorem stepsLeft_compute {isUnique : Bool} {data data' : RunnerData} {pc pc' : RunnerPc Body}
    (place : At base serialBy t pc)
    (computed : compute params bench t isUnique data pc = some (data', pc', event)) :
    (exists event', event = .bench event') ∧ stepsLeft pc' = stepsLeft pc ∨
      event = .internal ∧ stepsLeft pc' < stepsLeft pc := by
  cases pc <;> simp only [compute, reduceCtorEq] at computed
  case arrive call =>
    cases computed
    cases call <;> exact Or.inr ⟨rfl, Nat.lt_succ_self _⟩
  case wait call round =>
    split at computed <;> cases computed
    refine Or.inr ⟨rfl, ?_⟩
    cases call <;> cases isUnique <;> exact Nat.lt_of_sub_eq_succ rfl
  case initLock i =>
    rcases place with ⟨rfl, -⟩
    cases computed
    exact Or.inr ⟨rfl, Nat.lt_succ_self _⟩
  case bench body =>
    split at computed
    · cases computed
      exact Or.inr ⟨rfl, Nat.lt_succ_self _⟩
    · rcases Option.map_eq_some_iff.mp computed with ⟨⟨n, body', event'⟩, -, result⟩
      cases result
      exact Or.inl ⟨⟨event', rfl⟩, rfl⟩
  case destroyLock i =>
    rcases place with ⟨rfl, -⟩
    cases computed
    exact Or.inr ⟨rfl, Nat.lt_succ_self _⟩
  all_goals
    cases computed
    exact Or.inr ⟨rfl, Nat.lt_succ_self _⟩

/-- A step is one of the benchmark, or one step less. -/
theorem Inv.stepsLeft_moves (inv : Inv params base serialBy s)
    (moves : (client params bench).Moves s t event s') :
    exists shared pc, s' = ⟨shared, Function.update s.thread t pc⟩ ∧
      ((exists event', event = .bench event') ∧ stepsLeft pc = stepsLeft (s.thread t) ∨
        event = .internal ∧ stepsLeft pc < stepsLeft (s.thread t)) := by
  have place := inv.places t
  cases moves with
  | lock pc intends free =>
      refine ⟨_, pc, rfl, ?_⟩
      generalize s.thread t = old at intends
      cases old <;> try cases intends
      case bench body =>
        rcases lock_of_benchIntent intends with ⟨body', event', -, rfl, rfl⟩
        exact Or.inl ⟨⟨event', rfl⟩, rfl⟩
  | unlock pc intends =>
      refine ⟨_, pc, rfl, ?_⟩
      generalize s.thread t = old at intends
      cases old <;> try cases intends
      case bench body =>
        rcases unlock_of_benchIntent intends with ⟨body', event', -, rfl, rfl⟩
        exact Or.inl ⟨⟨event', rfl⟩, rfl⟩
  | compute isUnique data pc intends computed =>
      exact ⟨_, pc, rfl, stepsLeft_compute place computed⟩

/-! ## A state without a next step -/

omit [DecidableEq Tid] [Fintype Tid] in
/-- A thread that does not wait, neither for the others nor for the lock, can go on. -/
theorem exists_compute {pc : RunnerPc Body} {data : RunnerData}
    (goes : forall body, body ≠ bench.left -> bench.client.intent body = .compute ->
      forall t n, exists result, bench.client.compute t () n body = some result)
    (unlocked : (client params bench).intent pc = .compute) (busy : pc ≠ .returned)
    (free : forall call round, pc = .wait call round ->
      exists isUnique, data.barrier.mayDepart round isUnique = true) :
    exists isUnique result, compute params bench t isUnique data pc = some result := by
  cases pc
  case wait call round =>
    rcases free call round rfl with ⟨isUnique, may⟩
    exact ⟨isUnique, _, by rw [compute, if_pos may]⟩
  case bench body =>
    by_cases left : body = bench.left
    · exact ⟨true, _, by rw [compute, if_pos left]⟩
    · have inner := (compute_of_benchIntent unlocked).resolve_left left
      rcases goes body left inner t data.globalState with ⟨result, computed⟩
      exact ⟨true, _, by rw [compute, if_neg left, computed, Option.map_some]⟩
  case returned => exact absurd rfl busy
  all_goals exact ⟨true, _, rfl⟩

omit [Fintype Tid] in
/-- A thread that cannot go on has returned, or waits for the others or for the lock. -/
theorem stuck_thread
    (goes : forall body, body ≠ bench.left -> bench.client.intent body = .compute ->
      forall t n, exists result, bench.client.compute t () n body = some result)
    (stuck : forall event s', ¬(client params bench).Moves s t event s') :
    s.thread t = .returned ∨
      (exists call round, s.thread t = .wait call round ∧
        forall isUnique, s.shared.data.barrier.mayDepart round isUnique = false) ∨
      exists pc event, (client params bench).intent (s.thread t) = .lock pc event ∧
        s.shared.lock ≠ none := by
  cases intends : (client params bench).intent (s.thread t) with
  | lock pc event =>
      exact Or.inr (Or.inr ⟨pc, event, rfl, fun free => stuck _ _ (.lock pc intends free)⟩)
  | unlock pc event => exact absurd (.unlock pc intends) (stuck _ _)
  | compute =>
      by_contra others
      rw [not_or, not_or] at others
      have free : forall call round, s.thread t = .wait call round ->
          exists isUnique, s.shared.data.barrier.mayDepart round isUnique = true := by
        intro call round here
        by_contra never
        refine others.2.1 ⟨call, round, here, fun isUnique => ?_⟩
        exact Bool.eq_false_iff.mpr fun may => never ⟨isUnique, may⟩
      rcases exists_compute (t := t) goes intends others.1 free with
        ⟨isUnique, ⟨data, pc, event⟩, computed⟩
      exact stuck _ _ (.compute isUnique data pc intends computed)

/-- If no thread can go on, all have returned. -/
theorem Inv.returned (inv : Inv params base serialBy s) {holds : Body -> Prop}
    (brackets : (client params bench).Brackets (Holds holds))
    (excludes : LockClient.Excludes (Holds holds) s)
    (goes : forall body, body ≠ bench.left -> bench.client.intent body = .compute ->
      forall t n, exists result, bench.client.compute t () n body = some result)
    (stuck : forall t event s', ¬(client params bench).Moves s t event s') (t : Tid) :
    s.thread t = .returned := by
  have ends := fun u => stuck_thread goes (stuck u)
  -- Nobody holds the lock, since the holder could go on.
  have unheld : s.shared.lock = none := by
    refine Option.eq_none_iff_forall_ne_some.mpr fun u taken => ?_
    have held := (excludes u).mpr taken
    rcases ends u with here | ⟨call, round, here, -⟩ | ⟨pc, event, intends, -⟩
    · rw [here] at held
      cases held
    · rw [here] at held
      cases held
    · exact (brackets.lock _ _ _ intends).1 held
  -- So everybody has returned or waits for the others.
  have waits : forall u, s.thread u ≠ .returned -> exists call,
      s.thread u = .wait call (base + BarrierCall.index call) ∧
        forall isUnique, s.shared.data.barrier.mayDepart (base + BarrierCall.index call) isUnique =
          false := by
    intro u busy
    rcases ends u with here | ⟨call, round, here, never⟩ | ⟨pc, event, -, taken⟩
    · exact absurd here busy
    · have place := inv.places u
      rw [here] at place
      rcases (place : round = base + BarrierCall.index call) with rfl
      exact ⟨call, here, never⟩
    · exact absurd unheld taken
  by_contra busy
  -- The one that waits for the least round could go on.
  rcases Finset.exists_min_image (Finset.univ.filter fun u => s.thread u ≠ .returned)
    (fun u => (visit base (s.thread u)).departed) ⟨t, by simp [busy]⟩ with ⟨v, member, least⟩
  rcases waits v (Finset.mem_filter.mp member).2 with ⟨call, here, never⟩
  have visits : visit base (s.thread v) = ⟨base + BarrierCall.index call, true⟩ :=
    congrArg (visit base) here
  have come : forall u, base + BarrierCall.index call + 1 ≤ (visit base (s.thread u)).arrived := by
    intro u
    by_cases returned : s.thread u = .returned
    · have small : BarrierCall.index call + 1 ≤ 3 := by cases call <;> decide
      rw [returned]
      exact Nat.add_le_add_left small base
    · have later := least u (Finset.mem_filter.mpr ⟨Finset.mem_univ u, returned⟩)
      rw [visits] at later
      rcases waits u returned with ⟨call', there, -⟩
      rw [there] at later ⊢
      exact Nat.succ_le_succ later
  rcases inv.serves.exists_mayDepart come with ⟨isUnique, may⟩
  rw [never isUnique] at may
  cases may

/-! ## All trials -/

section trials

variable {Lock LockLocal LockAction LockEvent : Type}
  {lock : LockProgram Tid Lock LockLocal LockAction LockEvent} {barrier : Barrier}

/-- A trial over the specification of mutual exclusion. -/
abbrev abstractTrial (Tid : Type) [DecidableEq Tid] (params : BenchParams) (barrier : Barrier) :=
  (client params (params.bench Tid params.benchType)).overMutex.system
    (LockClient.startsOver (reset barrier) fun _ => .arrive .setup)

/-- The steps of the benchmark and those around it. -/
def Ranked (params : BenchParams) (base : Nat)
    (s : Machine Tid (WithLock (Option Tid) RunnerData) (RunnerPc (BenchPc params.benchType)))
    (rank : Nat) : Prop :=
  (exists serialBy, Inv params base serialBy s) ∧
    exists inner, params.Ranked params.benchType (benchPart (params.bench Tid _) s) inner ∧
      rank = inner + ∑ t, stepsLeft (s.thread t)

theorem ranked_next {rank : Nat} {label : Tid × RunnerEvent (BenchEvent params.benchType)}
    {s s' : Machine Tid (WithLock (Option Tid) RunnerData) (RunnerPc (BenchPc params.benchType))}
    (ranked : Ranked params base s rank) (moved : (abstractTrial Tid params barrier).next s label s') :
    exists rank', rank' < rank ∧ Ranked params base s' rank' := by
  rcases ranked with ⟨⟨serialBy, inv⟩, inner, benchRanked, rfl⟩
  have moves := LockClient.moves_of_next moved
  have kept := inv.moves moves
  rcases (refines_bench params _ barrier).step [] _ _ _ _ rfl moved trivial with ⟨_, steps, part⟩
  rcases inv.stepsLeft_moves moves with ⟨shared, pc, rfl, counts⟩
  have sum := sum_update stepsLeft s.thread label.1 pc
  rcases label with ⟨t, event⟩
  rcases counts with ⟨⟨event', rfl⟩, same⟩ | ⟨rfl, less⟩
  · rcases BenchParams.ranked_next _ benchRanked steps.of_single with ⟨inner', lower, benchRanked'⟩
    rw [part] at benchRanked'
    refine ⟨_, ?_, kept, inner', benchRanked', rfl⟩
    show inner' + (∑ u, stepsLeft (Function.update s.thread t pc u)) < _
    dsimp only at same sum
    omega
  · cases steps
    rw [part] at benchRanked
    refine ⟨_, ?_, kept, inner, benchRanked, rfl⟩
    show inner + (∑ u, stepsLeft (Function.update s.thread t pc u)) < _
    dsimp only at less sum
    omega

/-- Every trial ends: from every state that is reached only so many steps are
possible, and a state from which none is possible is the end. -/
theorem trial_ends (params : BenchParams)
    (lock : LockProgram Tid Lock LockLocal LockAction LockEvent)
    (threads : params.numThreads.toNat = Fintype.card Tid) (some : params.numThreads ≠ 0)
    (ends : params.Ends params.benchType) {k : Nat} (before : BeforeTrial params lock k barrier)
    {trace : List (Tid × RunnerEvent (BenchEvent params.benchType))}
    {s : Machine Tid (WithLock (Option Tid) RunnerData) (RunnerPc (BenchPc params.benchType))}
    (run : (abstractTrial Tid params barrier).Run TransitionSystem.unguarded trace s) :
    (exists bound, forall labels s', (abstractTrial Tid params barrier).Steps s labels s' ->
        labels.length ≤ bound) ∧
      ((forall label s', ¬(abstractTrial Tid params barrier).next s label s') ->
        forall t, s.thread t = .returned) := by
  have somebody : Nonempty Tid := by
    rw [← Fintype.card_pos_iff, ← threads]
    exact Nat.pos_of_ne_zero fun zero => some (UInt32.toNat_inj.mp zero)
  have rests := rests_beforeTrial threads before
  constructor
  · have ranked : exists rank, Ranked params (3 * k) s rank := by
      refine run.invariant (fun _ s => exists rank, Ranked params (3 * k) s rank) ?_ ?_
      · rintro s rfl
        have started : exists inner, params.Ranked params.benchType
          ⟨⟨none, 0⟩, fun _ : Tid => (params.bench Tid _).start⟩ inner :=
            BenchParams.ranked_start _ ends
        rcases started with ⟨inner, benchRanked⟩
        exact ⟨_, inv_start rests, inner, benchRanked, rfl⟩
      · rintro _ s label s' ⟨rank, ranked⟩ moved _
        rcases ranked_next ranked moved with ⟨rank', -, ranked'⟩
        exact ⟨rank', ranked'⟩
    rcases ranked with ⟨rank, ranked⟩
    refine ⟨rank, fun labels s' steps => ?_⟩
    exact steps.length_le (fun _ _ _ _ here moved => ranked_next here moved) ranked
  · intro stuck t
    rcases inv_of_run rests run with ⟨serialBy, inv⟩
    have brackets : (client params (params.bench Tid params.benchType)).Brackets
        (Holds (BenchHolds params.benchType)) :=
      client_brackets (params.bench_brackets _) (params.not_holds_start _)
        (params.not_holds_left _)
    refine inv.returned brackets (brackets.run (fun _ => id) run)
      (fun _ stays intends => BenchParams.goes _ stays intends) ?_ t
    exact fun t event s' moves => stuck (t, event) s' (LockClient.next_of_moves moves)

/-- Eight threads add chunks of 25 to make 100. -/
theorem trial_ends_quarters :
    (exists bound, forall labels s',
      (abstractTrial (Fin 8) ⟨0, 100, 25, 0, 0, .totalWork, 8⟩ (Barrier.init 8)).Steps
          ⟨⟨none, reset (Barrier.init 8)⟩, fun _ => .arrive .setup⟩ labels s' ->
        labels.length ≤ bound) ∧
      ((forall label s', ¬(abstractTrial (Fin 8) ⟨0, 100, 25, 0, 0, .totalWork, 8⟩
          (Barrier.init 8)).next ⟨⟨none, reset (Barrier.init 8)⟩, fun _ => .arrive .setup⟩ label s') ->
        forall t : Fin 8, (fun _ => RunnerPc.arrive .setup : Fin 8 -> RunnerPc TotalWorkPc) t =
          .returned) :=
  trial_ends ⟨0, 100, 25, 0, 0, .totalWork, 8⟩ (LockBase.lockProgram (Fin 8) spinlock) rfl
    (by decide) (show (25 : UInt32).toNat.gcd (2 ^ 64) ∣ (100 : UInt32).toNat by decide) .first
    (.start rfl)

end trials

end BenchRunner

end Runner
end Autolock
