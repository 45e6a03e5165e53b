import Autolock.Runner.BenchRunner

namespace Autolock
namespace Runner

open Concurrency

/-!
# The benchmark inside the thread function

Seen from the lock and the counter a trial is a run of the benchmark: what
`bench_runner` does around it leaves both alone.
-/

/-! ## The benchmark of total work as a client -/

namespace TotalWork

variable {Tid : Type} {p : TotalWork}

theorem client_brackets : (p.client Tid).Brackets Holds where
  lock := by
    intro pc pc' event intends
    cases pc <;> cases intends
    exact ⟨id, trivial⟩
  unlock := by
    intro pc pc' event intends
    cases pc <;> cases intends
    · exact ⟨trivial, not_holds_extraLoop _⟩
    · exact ⟨trivial, id⟩
  compute := by
    intro t choice n pc n' pc' event intends computed
    cases pc <;> cases intends <;> simp only [client] at computed
    case loadGlobalState =>
      split at computed <;> cases computed
      · exact Iff.rfl
      · exact iff_of_true (holds_csLoop _) trivial
    case csLoad =>
      cases computed
      exact Iff.rfl
    case csStore =>
      cases computed
      exact iff_of_true (holds_csLoop _) trivial
    case extraWork =>
      cases computed
      exact iff_of_false (not_holds_extraLoop _) id
    case left => cases computed

variable [DecidableEq Tid]

/-- The state of the benchmark without the client's words for it. -/
def ofClient (s : Machine Tid (WithLock (Option Tid) UInt64) TotalWorkPc) :
    Machine Tid (BenchShared Tid) TotalWorkPc :=
  ⟨⟨s.shared.lock, s.shared.data⟩, s.thread⟩

theorem client_step (choice : Unit) {t : Tid} {shared : WithLock (Option Tid) UInt64}
    {pc : TotalWorkPc} :
    p.step t ⟨shared.lock, shared.data⟩ pc =
      ((p.client Tid).overMutex.step t choice shared pc).map fun result =>
        (⟨result.1.lock, result.1.data⟩, result.2) := by
  cases pc <;> simp only [TotalWork.step, LockClient.overMutex, client]
  case lock => split <;> rfl
  case loadGlobalState => split <;> rfl
  all_goals rfl

/-- The client does what the benchmark does. -/
theorem client_next {init : Machine Tid (WithLock (Option Tid) UInt64) TotalWorkPc -> Prop}
    {s s' : Machine Tid (WithLock (Option Tid) UInt64) TotalWorkPc} {label : Tid × TotalWorkEvent}
    (moved : ((p.client Tid).overMutex.system init).next s label s') :
    (system Tid p).next (ofClient s) label (ofClient s') := by
  rcases Program.system_next moved with ⟨choice, shared, pc, stepped, rfl⟩
  refine ⟨(), ?_⟩
  show (p.step label.1 ⟨s.shared.lock, s.shared.data⟩ (s.thread label.1)).map _ = _
  rw [client_step choice, Option.map_map, stepped]
  rfl

theorem client_run {s : Machine Tid (WithLock (Option Tid) UInt64) TotalWorkPc}
    {trace : List (Tid × TotalWorkEvent)}
    (run : ((p.client Tid).overMutex.system (LockClient.startsOver 0 fun _ => .lock)).Run
      TransitionSystem.unguarded trace s) :
    (system Tid p).Run TransitionSystem.unguarded trace (ofClient s) := by
  induction run with
  | start initial =>
      rcases initial with rfl
      exact .start rfl
  | step _ moved _ inductionHypothesis => exact inductionHypothesis.step (client_next moved) trivial

end TotalWork

/-! ## Before, inside and after the benchmark -/

namespace BenchRunner

variable {Tid Body Event : Type} [DecidableEq Body]

/-- Where a thread is in the benchmark: at its start before it is called, and
where it returns afterwards. -/
def bodyOf (bench : Bench Tid Body Event) : RunnerPc Body -> Body
  | .bench body => body
  | .arrive .finish | .wait .finish _ | .destroyLock _ | .statsOut _ | .returned => bench.left
  | _ => bench.start

/-- The events of the benchmark. -/
def benchEvents : Tid × RunnerEvent Event -> List (Tid × Event)
  | (t, .bench event) => [(t, event)]
  | (_, .internal) => []

/-- The part of a state that belongs to the benchmark. -/
def benchPart {Lock : Type} (bench : Bench Tid Body Event)
    (s : Machine Tid (WithLock Lock RunnerData) (RunnerPc Body)) :
    Machine Tid (WithLock Lock UInt64) Body :=
  ⟨⟨s.shared.lock, s.shared.data.globalState⟩, fun t => bodyOf bench (s.thread t)⟩

variable {bench : Bench Tid Body Event} {params : BenchParams}

theorem lock_of_benchIntent {body : Body} {pc : RunnerPc Body} {event : RunnerEvent Event}
    (intends : benchIntent bench body = .lock pc event) :
    exists body' event', bench.client.intent body = .lock body' event' ∧ pc = .bench body' ∧
      event = .bench event' := by
  unfold benchIntent at intends
  split at intends
  · cases intends
  · split at intends
    · next body' event' inner =>
        cases intends
        exact ⟨body', event', inner, rfl, rfl⟩
    · cases intends
    · cases intends

theorem unlock_of_benchIntent {body : Body} {pc : RunnerPc Body} {event : RunnerEvent Event}
    (intends : benchIntent bench body = .unlock pc event) :
    exists body' event', bench.client.intent body = .unlock body' event' ∧ pc = .bench body' ∧
      event = .bench event' := by
  unfold benchIntent at intends
  split at intends
  · cases intends
  · split at intends
    · cases intends
    · next body' event' inner =>
        cases intends
        exact ⟨body', event', inner, rfl, rfl⟩
    · cases intends

theorem compute_of_benchIntent {body : Body} (intends : benchIntent bench body = .compute) :
    body = bench.left ∨ bench.client.intent body = .compute := by
  unfold benchIntent at intends
  split at intends
  · next left => exact Or.inl left
  · split at intends
    · cases intends
    · cases intends
    · next inner => exact Or.inr inner

omit [DecidableEq Body] in
theorem bodyOf_initLoop (params : BenchParams) (i : UInt32) : bodyOf bench (initLoop params i) = bench.start := by
  unfold initLoop
  split <;> rfl

omit [DecidableEq Body] in
theorem bodyOf_destroyLoop (params : BenchParams) (i : UInt32) : bodyOf bench (destroyLoop params i) = bench.left := by
  unfold destroyLoop
  split <;> rfl

omit [DecidableEq Body] in
theorem bodyOf_afterBarrier {start : Body} (starts : start = bench.start) (isUnique : Bool)
    (call : BarrierCall) (round : Nat) :
    bodyOf bench (afterBarrier params start isUnique call) = bodyOf bench (.wait call round) := by
  cases call with
  | setup =>
      cases isUnique
      · rfl
      · exact bodyOf_initLoop params 0
  | start => exact starts
  | finish =>
      cases isUnique
      · rfl
      · exact bodyOf_destroyLoop params 0

variable {t : Tid} {isUnique : Bool} {data data' : RunnerData} {pc pc' : RunnerPc Body}
  {event : RunnerEvent Event}

/-- Outside the benchmark the function leaves the benchmark alone. -/
theorem compute_outside (outside : forall body, pc ≠ .bench body)
    (computed : compute params bench t isUnique data pc = some (data', pc', event)) :
    event = .internal ∧ data'.globalState = data.globalState ∧
      bodyOf bench pc' = bodyOf bench pc := by
  cases pc <;> simp only [compute, reduceCtorEq] at computed
  case arrive call =>
    cases computed
    cases call <;> exact ⟨rfl, rfl, rfl⟩
  case wait call round =>
    split at computed <;> cases computed
    exact ⟨rfl, rfl, bodyOf_afterBarrier rfl isUnique call round⟩
  case initLock i =>
    cases computed
    exact ⟨rfl, rfl, bodyOf_initLoop params (i + 1)⟩
  case bench body => exact absurd rfl (outside body)
  case destroyLock i =>
    cases computed
    exact ⟨rfl, rfl, bodyOf_destroyLoop params (i + 1)⟩
  all_goals
    cases computed
    exact ⟨rfl, rfl, rfl⟩

/-- Inside it does what the benchmark does, or returns from it. -/
theorem compute_inside {body : Body}
    (computed : compute params bench t isUnique data (.bench body) = some (data', pc', event)) :
    (body = bench.left ∧ data' = data ∧ pc' = .arrive .finish ∧ event = .internal) ∨
      exists n body' event', body ≠ bench.left ∧
        bench.client.compute t () data.globalState body = some (n, body', event') ∧
        data' = { data with globalState := n } ∧ pc' = .bench body' ∧ event = .bench event' := by
  simp only [compute] at computed
  split at computed
  · next left =>
      cases computed
      exact Or.inl ⟨left, rfl, rfl, rfl⟩
  · next stays =>
      rcases Option.map_eq_some_iff.mp computed with ⟨⟨n, body', event'⟩, inner, result⟩
      cases result
      exact Or.inr ⟨n, body', event', stays, inner, rfl, rfl, rfl⟩

variable [DecidableEq Tid]

omit [DecidableEq Body] in
theorem benchPart_update {Lock : Type} (shared : WithLock Lock RunnerData)
    (thread : Tid -> RunnerPc Body) :
    benchPart bench ⟨shared, Function.update thread t pc⟩ =
      ⟨⟨shared.lock, shared.data.globalState⟩,
        Function.update (fun u => bodyOf bench (thread u)) t (bodyOf bench pc)⟩ := by
  simp only [benchPart, Machine.mk.injEq, true_and]
  exact Function.comp_update (bodyOf bench) thread t pc

/-- What the threads of a trial do to the lock and the counter is what the
threads of the benchmark do. -/
def refines_bench (params : BenchParams) (bench : Bench Tid Body Event) (barrier : Barrier) :
    ((client params bench).overMutex.system
      (LockClient.startsOver (reset barrier) fun _ => .arrive .setup)).Simulation
        TransitionSystem.unguarded
        (bench.client.overMutex.system (LockClient.startsOver 0 fun _ => bench.start))
        benchEvents where
  rel := fun _ a s => a = benchPart bench s
  start := by
    rintro s rfl
    exact ⟨_, rfl, rfl⟩
  step := by
    rintro trace a s ⟨t, event⟩ s' rfl moved _
    have moves := LockClient.moves_of_next moved
    dsimp only at moves
    have at_bench : forall {body}, s.thread t = .bench body -> (benchPart bench s).thread t = body :=
      fun here => congrArg (bodyOf bench) here
    cases moves with
    | lock pc intends free =>
        generalize here : s.thread t = old at intends
        cases old <;> try cases intends
        case bench body =>
          rcases lock_of_benchIntent intends with ⟨body', event', inner, rfl, rfl⟩
          rw [← at_bench here] at inner
          refine ⟨_, .single ?_, rfl⟩
          rw [benchPart_update]
          exact LockClient.next_of_moves (.lock _ inner free)
    | unlock pc intends =>
        generalize here : s.thread t = old at intends
        cases old <;> try cases intends
        case bench body =>
          rcases unlock_of_benchIntent intends with ⟨body', event', inner, rfl, rfl⟩
          rw [← at_bench here] at inner
          refine ⟨_, .single ?_, rfl⟩
          rw [benchPart_update]
          exact LockClient.next_of_moves (.unlock _ inner)
    | compute isUnique data pc intends computed =>
        change compute params bench t isUnique s.shared.data (s.thread t) = some (data, pc, event)
          at computed
        by_cases inside : exists body, s.thread t = .bench body
        · rcases inside with ⟨body, here⟩
          rw [here] at intends computed
          rcases compute_inside computed with
            ⟨rfl, rfl, rfl, rfl⟩ | ⟨n, body', event', stays, inner, rfl, rfl, rfl⟩
          · refine ⟨benchPart bench s, .refl _, ?_⟩
            rw [benchPart_update]
            exact (congrArg (Machine.mk _) (Function.update_eq_iff.mpr
              ⟨(at_bench here).symm, fun _ _ => rfl⟩)).symm
          · have inside : bench.client.intent ((benchPart bench s).thread t) = .compute := by
              rw [at_bench here]
              exact (compute_of_benchIntent intends).resolve_left stays
            rw [← at_bench here] at inner
            refine ⟨_, .single ?_, rfl⟩
            rw [benchPart_update]
            exact LockClient.next_of_moves (.compute () n body' inside inner)
        · rcases compute_outside (not_exists.mp inside) computed with ⟨rfl, same, stays⟩
          refine ⟨benchPart bench s, .refl _, ?_⟩
          rw [benchPart_update, same, stays]
          exact (congrArg (Machine.mk _) (Function.update_eq_self t _)).symm

end BenchRunner

/-! ## Either benchmark -/

/-- The thread has the lock. -/
def BenchHolds : (type : BenchType) -> BenchPc type -> Prop
  | .totalWork => TotalWork.Holds
  | .perThreadWork => PerThreadWork.Holds

namespace BenchParams

variable {Tid : Type} {params : BenchParams}

theorem bench_brackets (type : BenchType) :
    (params.bench Tid type).client.Brackets (BenchHolds type) := by
  cases type with
  | totalWork => exact TotalWork.client_brackets
  | perThreadWork => exact PerThreadWork.brackets

theorem not_holds_start (type : BenchType) : ¬BenchHolds type (params.bench Tid type).start := by
  cases type <;> exact id

theorem not_holds_left (type : BenchType) : ¬BenchHolds type (params.bench Tid type).left := by
  cases type <;> exact id

/-- When all threads have returned, the counter is what the runner expects. -/
theorem bench_expected [Fintype Tid] [Nonempty Tid] [DecidableEq Tid]
    (threads : params.numThreads.toNat = Fintype.card Tid) (type : BenchType)
    (rounds : type = .perThreadWork -> params.outerIter ≠ 0)
    {trace : List (Tid × BenchEvent type)}
    {s : Machine Tid (WithLock (Option Tid) UInt64) (BenchPc type)}
    (run : ((params.bench Tid type).client.overMutex.system
      (LockClient.startsOver 0 fun _ => (params.bench Tid type).start)).Run
        TransitionSystem.unguarded trace s)
    (left : forall t, s.thread t = (params.bench Tid type).left) :
    s.shared.data = getExpectedCount params.numThreads params.outerIter params.csIter type := by
  cases type with
  | totalWork =>
      have inv := TotalWork.inv_of_run (TotalWork.client_run run)
      have somebody := Classical.arbitrary Tid
      refine inv.done (t := somebody) ?_
      rw [show (TotalWork.ofClient s).thread somebody = .left from left somebody]
      trivial
  | perThreadWork => exact (PerThreadWork.inv_of_run (rounds rfl) run).expected threads left

end BenchParams

namespace BenchRunner

variable {Tid Body Event : Type} [DecidableEq Body] {params : BenchParams}
  {bench : Bench Tid Body Event} {holds : Body -> Prop}

/-- The thread has the lock. -/
def Holds (holds : Body -> Prop) : RunnerPc Body -> Prop
  | .bench body => holds body
  | _ => False

/-- The thread is in the benchmark. -/
def Inside (pc : RunnerPc Body) : Prop := exists body, pc = .bench body

omit [DecidableEq Body] in
theorem not_holds_elsewhere {pc : RunnerPc Body} (outside : forall body, pc ≠ .bench body) :
    ¬Holds holds pc := by
  cases pc
  case bench body => exact absurd rfl (outside body)
  all_goals exact id

omit [DecidableEq Body] in
theorem not_holds_afterBarrier (started : ¬holds bench.start) (isUnique : Bool)
    (call : BarrierCall) : ¬Holds holds (afterBarrier params bench.start isUnique call) := by
  cases call with
  | setup => cases isUnique <;> exact id
  | start => exact started
  | finish => cases isUnique <;> exact id

/-- Outside the benchmark the function does not take the lock. -/
theorem not_holds_outside (started : ¬holds bench.start) {t : Tid} {isUnique : Bool}
    {data data' : RunnerData} {pc pc' : RunnerPc Body} {event : RunnerEvent Event}
    (outside : forall body, pc ≠ .bench body)
    (computed : compute params bench t isUnique data pc = some (data', pc', event)) :
    ¬Holds holds pc' := by
  cases pc <;> simp only [compute, reduceCtorEq] at computed
  case wait call round =>
    split at computed <;> cases computed
    exact not_holds_afterBarrier started isUnique call
  case initLock i =>
    cases computed
    unfold initLoop
    split <;> exact id
  case bench body => exact absurd rfl (outside body)
  case destroyLock i =>
    cases computed
    unfold destroyLoop
    split <;> exact id
  all_goals
    cases computed
    exact id

theorem client_brackets (brackets : bench.client.Brackets holds) (started : ¬holds bench.start)
    (left : ¬holds bench.left) : (client params bench).Brackets (Holds holds) where
  lock := by
    intro pc pc' event intends
    cases pc <;> try cases intends
    case bench body =>
      rcases lock_of_benchIntent intends with ⟨body', event', inner, rfl, rfl⟩
      exact brackets.lock _ _ _ inner
  unlock := by
    intro pc pc' event intends
    cases pc <;> try cases intends
    case bench body =>
      rcases unlock_of_benchIntent intends with ⟨body', event', inner, rfl, rfl⟩
      exact brackets.unlock _ _ _ inner
  compute := by
    intro t isUnique data pc data' pc' event intends computed
    change compute params bench t isUnique data pc = some (data', pc', event) at computed
    by_cases inside : exists body, pc = .bench body
    · rcases inside with ⟨body, rfl⟩
      rcases compute_inside computed with
        ⟨rfl, -, rfl, -⟩ | ⟨n, body', event', stays, inner, -, rfl, -⟩
      · exact iff_of_false id left
      · have inside := (compute_of_benchIntent intends).resolve_left stays
        exact brackets.compute _ _ _ _ _ _ _ inside inner
    · have outside := not_exists.mp inside
      exact iff_of_false (not_holds_outside started outside computed) (not_holds_elsewhere outside)

theorem client_covers (left : ¬holds bench.left) :
    (client params bench).Covers (Holds holds) Inside where
  lock := by
    intro pc pc' event intends
    cases pc <;> try cases intends
    case bench body =>
      rcases lock_of_benchIntent intends with ⟨body', event', -, rfl, -⟩
      exact ⟨⟨body, rfl⟩, body', rfl⟩
  unlock := by
    intro pc pc' event intends
    cases pc <;> try cases intends
    case bench body =>
      rcases unlock_of_benchIntent intends with ⟨body', event', -, rfl, -⟩
      exact ⟨⟨body, rfl⟩, body', rfl⟩
  compute := by
    intro t isUnique data pc data' pc' event intends computed held
    change compute params bench t isUnique data pc = some (data', pc', event) at computed
    cases pc <;> try cases held
    case bench body =>
      rcases compute_inside computed with
        ⟨rfl, -, -, -⟩ | ⟨n, body', event', -, -, -, rfl, -⟩
      · exact absurd held left
      · exact ⟨body', rfl⟩

end BenchRunner

end Runner
end Autolock
