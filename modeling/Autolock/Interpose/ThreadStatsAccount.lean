import Autolock.Interpose.ThreadStats
import Mathlib.Data.List.Forall2

namespace Autolock
namespace Interpose

/-!
# What a node says of the calls of its thread

The first calls of a thread only set the time at which its measurement starts.
Each later one is counted and its duration is added up, and what a call of
`unlock` leaves behind is the time at which the measurement ends.

A call is counted by several stores, and a node is read by several loads.  A node
accounts for the calls of its thread between two of them, and inside a counted
call it does so once the stores that are still to come are added.  A reader that
nobody disturbs finds in the end what the node says as a whole.
-/

/-- A timed call with its times. -/
structure TimedCall where
  func : TimedFunc
  start : UInt64
  timeEnd : UInt64
  deriving DecidableEq, Repr

namespace Timing

section spec

variable (calls : List TimedCall)

/-- The calls after the warm-up. -/
def counted : List TimedCall :=
  calls.drop 64

/-- A counter of 32 bits. -/
def numCalls (func : TimedFunc) : UInt32 :=
  UInt32.ofNat ((counted calls).countP fun call => call.func = func)

def timeIn (func : TimedFunc) : UInt64 :=
  (((counted calls).filter fun call => call.func = func).map fun call =>
    call.timeEnd - call.start).sum

/-- When the last call of the warm-up started. -/
def measuredFrom : UInt64 :=
  (((calls.take 64).getLast?).map TimedCall.start).getD 0

/-- When the last call of `unlock` ended that was counted. -/
def measuredTo : UInt64 :=
  ((((counted calls).filter fun call => call.func = .unlock).getLast?).map TimedCall.timeEnd).getD 0

/-- What is printed about a thread with these calls. -/
def report (header : Bool) : StatsOutput :=
  if numCalls calls .trylock = 0 ∧ numCalls calls .lock = 0 ∧ numCalls calls .unlock = 0 then
    .nothing
  else if measuredTo calls ≤ measuredFrom calls then .noTimes
  else .line header (ThreadStats.funcs.map (numCalls calls)) (measuredTo calls - measuredFrom calls)
    (ThreadStats.funcs.map (timeIn calls))

end spec

/-! ## The account of a node -/

/-- The time that the measurement ends at. -/
def lastTime (stats : ThreadStats) : UInt64 :=
  stats.timeHistory ((stats.historyIdx - 1) % ThreadStats.cooldownCalls)

theorem out_eq (stats : ThreadStats) (already : Bool) :
    (stats.out already).2 =
      if stats.numCalls .trylock = 0 ∧ stats.numCalls .lock = 0 ∧ stats.numCalls .unlock = 0 then
        .nothing
      else if lastTime stats ≤ stats.timeStart then .noTimes
      else .line (!already) (ThreadStats.funcs.map stats.numCalls)
        (lastTime stats - stats.timeStart) (ThreadStats.funcs.map stats.time) := by
  unfold ThreadStats.out lastTime
  dsimp only
  split_ifs <;> rfl

/-- What a node says of these calls. -/
structure Accounts (stats : ThreadStats) (calls : List TimedCall) : Prop where
  numCalls : forall func, stats.numCalls func = numCalls calls func
  time : forall func, stats.time func = timeIn calls func
  timeStart : stats.timeStart = measuredFrom calls
  timeEnd : lastTime stats = measuredTo calls

/-- The node after the stores of a counted call that are still to come. -/
def finish (stats : ThreadStats) : CountPc -> ThreadStats
  | .time func start timeEnd =>
      let timed := { stats with
        time := Function.update stats.time func (stats.time func + (timeEnd - start)) }
      match func with
      | .unlock =>
          { timed with
            historyIdx := stats.historyIdx + 1
            timeHistory := Function.update stats.timeHistory
              (stats.historyIdx % ThreadStats.cooldownCalls) timeEnd }
      | _ => timed
  | .historyIdx timeEnd =>
      { stats with
        historyIdx := stats.historyIdx + 1
        timeHistory := Function.update stats.timeHistory
          (stats.historyIdx % ThreadStats.cooldownCalls) timeEnd }
  | .timeHistory idx timeEnd =>
      { stats with timeHistory := Function.update stats.timeHistory idx timeEnd }

/-- A store of a counted call is one of those that were to come. -/
theorem finish_countStep (stats : ThreadStats) (pc : CountPc) :
    (stats.countStep pc).2.elim (stats.countStep pc).1 (finish (stats.countStep pc).1) =
      finish stats pc := by
  cases pc with
  | time func => cases func <;> rfl
  | historyIdx | timeHistory => rfl

section account

variable {stats : ThreadStats} {calls : List TimedCall} {call : TimedCall}

theorem accounts_zero : Accounts ThreadStats.zero [] where
  numCalls := fun _ => rfl
  time := fun _ => rfl
  timeStart := rfl
  timeEnd := rfl

theorem Accounts.link (accounts : Accounts stats calls) (next : StatsPtr) :
    Accounts { stats with next := next } calls :=
  ⟨accounts.numCalls, accounts.time, accounts.timeStart, accounts.timeEnd⟩

/-- A call of the warm-up. -/
theorem Accounts.warm (accounts : Accounts stats calls) (few : calls.length < 64) :
    Accounts { stats with timeStart := call.start } (calls ++ [call]) := by
  have before : counted calls = [] := List.drop_eq_nil_of_le (Nat.le_of_lt few)
  have after : counted (calls ++ [call]) = [] := by
    refine List.drop_eq_nil_of_le ?_
    rw [List.length_append, List.length_singleton]
    exact few
  refine ⟨fun func => ?_, fun func => ?_, ?_, ?_⟩
  · rw [Timing.numCalls, after]
    exact (accounts.numCalls func).trans (by rw [Timing.numCalls, before])
  · rw [timeIn, after]
    exact (accounts.time func).trans (by rw [timeIn, before])
  · rw [measuredFrom, List.take_of_length_le, List.getLast?_concat]
    · rfl
    · rw [List.length_append, List.length_singleton]
      exact few
  · rw [measuredTo, after]
    exact accounts.timeEnd.trans (by rw [measuredTo, before])

theorem counted_concat (many : 64 ≤ calls.length) :
    counted (calls ++ [call]) = counted calls ++ [call] :=
  List.drop_append_of_le_length many

theorem numCalls_concat (many : 64 ≤ calls.length) (func : TimedFunc) :
    numCalls (calls ++ [call]) func =
      if func = call.func then numCalls calls func + 1 else numCalls calls func := by
  rw [numCalls, numCalls, counted_concat many, List.countP_append, List.countP_singleton]
  by_cases same : func = call.func
  · rw [if_pos same, if_pos (decide_eq_true same.symm), UInt32.ofNat_add]
    rfl
  · rw [if_neg same, if_neg (by simpa using Ne.symm same), Nat.add_zero]

theorem timeIn_concat (many : 64 ≤ calls.length) (func : TimedFunc) :
    timeIn (calls ++ [call]) func =
      if func = call.func then timeIn calls func + (call.timeEnd - call.start)
      else timeIn calls func := by
  rw [timeIn, timeIn, counted_concat many, List.filter_append, List.map_append, List.sum_append]
  by_cases same : func = call.func
  · simp [same]
  · simp [same, Ne.symm same]

theorem measuredTo_concat (many : 64 ≤ calls.length) :
    measuredTo (calls ++ [call]) =
      if call.func = .unlock then call.timeEnd else measuredTo calls := by
  rw [measuredTo, measuredTo, counted_concat many, List.filter_append]
  by_cases last : call.func = .unlock <;> simp [last]

theorem measuredFrom_concat (many : 64 ≤ calls.length) :
    measuredFrom (calls ++ [call]) = measuredFrom calls := by
  rw [measuredFrom, List.take_append_of_le_length many]
  rfl

/-- A call that is counted, by all its stores. -/
theorem Accounts.count (accounts : Accounts stats calls) (many : 64 ≤ calls.length) :
    Accounts (finish (stats.addCall call.func) (.time call.func call.start call.timeEnd))
      (calls ++ [call]) := by
  generalize counted : finish (stats.addCall call.func) _ = after
  have numCalls : after.numCalls =
      Function.update stats.numCalls call.func (stats.numCalls call.func + 1) := by
    subst counted
    cases call.func <;> rfl
  have time : after.time = Function.update stats.time call.func
      (stats.time call.func + (call.timeEnd - call.start)) := by
    subst counted
    cases call.func <;> rfl
  have timeStart : after.timeStart = stats.timeStart := by
    subst counted
    cases call.func <;> rfl
  refine ⟨fun func => ?_, fun func => ?_, ?_, ?_⟩
  · rw [numCalls, numCalls_concat many, Function.update_apply, accounts.numCalls,
      accounts.numCalls]
    split
    · next same => rw [same]
    · rfl
  · rw [time, timeIn_concat many, Function.update_apply, accounts.time, accounts.time]
    split
    · next same => rw [same]
    · rfl
  · rw [timeStart, measuredFrom_concat many, accounts.timeStart]
  · rw [measuredTo_concat many]
    subst counted
    cases called : call.func with
    | unlock =>
        rw [if_pos rfl]
        simp only [finish, lastTime, ThreadStats.addCall, add_sub_cancel_right,
          Function.update_self]
    | trylock | lock => exact accounts.timeEnd

/-- What is printed for the node is the report. -/
theorem Accounts.out (accounts : Accounts stats calls) (printed : Bool) :
    (stats.out printed).2 = report calls (!printed) := by
  simp only [out_eq, report, accounts.numCalls, accounts.timeEnd, accounts.timeStart,
    ThreadStats.funcs, List.map_cons, List.map_nil, accounts.time]

theorem numCalls_few (few : calls.length ≤ 64) (func : TimedFunc) : numCalls calls func = 0 := by
  have none : counted calls = [] := List.drop_eq_nil_of_le few
  rw [numCalls, none]
  rfl

end account

/-! ## Lists that are read element by element -/

section read

variable {α β : Type}

/-- For the first of the `xs`, one after the other, these have been read. -/
def ReadSoFar (relation : α -> β -> Prop) (xs : List α) (ys : List β) : Prop :=
  List.Forall₂ relation (xs.take ys.length) ys

variable {relation : α -> β -> Prop} {xs : List α} {ys : List β}

theorem readSoFar_nil : ReadSoFar relation xs [] :=
  .nil

theorem ReadSoFar.concat (soFar : ReadSoFar relation xs ys) {x : α} {y : β}
    (next : xs[ys.length]? = some x) (related : relation x y) :
    ReadSoFar relation xs (ys ++ [y]) := by
  unfold ReadSoFar
  rw [List.length_append, List.length_singleton, List.take_add_one, next]
  exact List.rel_append soFar (.cons related .nil)

theorem ReadSoFar.all (soFar : ReadSoFar relation xs ys) (next : xs[ys.length]? = none) :
    List.Forall₂ relation xs ys := by
  unfold ReadSoFar at soFar
  rwa [List.take_of_length_le (List.getElem?_eq_none_iff.mp next)] at soFar

theorem eq_map_of_forall₂ {f : α -> β} (all : List.Forall₂ (fun x y => f x = y) xs ys) :
    ys = xs.map f := by
  rw [← List.forall₂_map_left_iff (R := Eq), List.forall₂_eq_eq_eq] at all
  exact all.symm

end read

/-! ## A reader that nobody disturbs -/

section reader

/-- Some call has been counted. -/
def HasCalls (stats : ThreadStats) : Prop :=
  ¬(stats.numCalls .trylock = 0 ∧ stats.numCalls .lock = 0 ∧ stats.numCalls .unlock = 0)

/-- What has been read of the node is what it says. -/
def Agrees (stats : ThreadStats) : OutPc -> Prop
  | .condition .trylock => True
  | .condition .lock => stats.numCalls .trylock = 0
  | .condition .unlock => stats.numCalls .trylock = 0 ∧ stats.numCalls .lock = 0
  | .historyIdx => HasCalls stats
  | .timeHistory lastHistIdx =>
      HasCalls stats ∧ lastHistIdx = (stats.historyIdx - 1) % ThreadStats.cooldownCalls
  | .timeStart timeEnd => HasCalls stats ∧ timeEnd = lastTime stats
  | .exchange timeTotal =>
      HasCalls stats ∧ ¬lastTime stats ≤ stats.timeStart ∧
        timeTotal = lastTime stats - stats.timeStart
  | .arguments _ timeTotal numCalls times =>
      HasCalls stats ∧ ¬lastTime stats ≤ stats.timeStart ∧
        timeTotal = lastTime stats - stats.timeStart ∧
        ReadSoFar (fun func count => stats.numCalls func = count) ThreadStats.funcs numCalls ∧
        ReadSoFar (fun func time => stats.time func = time) ThreadStats.funcs times

variable {stats : ThreadStats} {printed printed' : Bool} {pc pc' : OutPc} {text : StatsOutput}

/-- One more access to a node that stays as it is. -/
theorem Agrees.step (agrees : Agrees stats pc)
    (stepped : stats.outStep printed pc = (printed', .inl pc')) : Agrees stats pc' := by
  cases ThreadStats.outAccess stepped with
  | someCall func some =>
      intro none
      cases func with
      | trylock => exact some none.1
      | lock => exact some none.2.1
      | unlock => exact some none.2.2
  | noTrylock none => exact none
  | noLock none => exact ⟨agrees, none⟩
  | historyIdx => exact ⟨agrees, rfl⟩
  | timeHistory lastHistIdx =>
      rcases agrees with ⟨some, rfl⟩
      exact ⟨some, rfl⟩
  | later timeEnd later =>
      rcases agrees with ⟨some, rfl⟩
      exact ⟨some, later, rfl⟩
  | exchange timeTotal =>
      rcases agrees with ⟨some, later, total⟩
      exact ⟨some, later, total, readSoFar_nil, readSoFar_nil⟩
  | numCalls header timeTotal calls times func more =>
      rcases agrees with ⟨some, later, total, counts, sums⟩
      exact ⟨some, later, total, ReadSoFar.concat counts more rfl, sums⟩
  | time header timeTotal calls times func more =>
      rcases agrees with ⟨some, later, total, counts, sums⟩
      exact ⟨some, later, total, counts, ReadSoFar.concat sums more rfl⟩

/-- What is written in the end is what the node says. -/
theorem Agrees.out (agrees : Agrees stats pc)
    (stepped : stats.outStep printed pc = (printed', .inr text)) :
    exists already, text = (stats.out already).2 := by
  cases ThreadStats.outAccess stepped with
  | noUnlock none => exact ⟨true, by rw [out_eq, if_pos ⟨agrees.1, agrees.2, none⟩]⟩
  | early timeEnd early =>
      rcases agrees with ⟨some, rfl⟩
      exact ⟨true, by rw [out_eq, if_neg some, if_pos early]⟩
  | line header timeTotal numCalls times noCall noTime =>
      rcases agrees with ⟨some, later, rfl, calls, sums⟩
      refine ⟨!header, ?_⟩
      rw [out_eq, if_neg some, if_neg later, ← eq_map_of_forall₂ (ReadSoFar.all calls noCall),
        ← eq_map_of_forall₂ (ReadSoFar.all sums noTime), Bool.not_not]

/-- Nothing undoes that the header has been printed. -/
theorem outStep_printed {result : OutPc ⊕ StatsOutput}
    (stepped : stats.outStep true pc = (printed', result)) : printed' = true := by
  cases ThreadStats.outAccess stepped <;> rfl

/-- Behind the condition. -/
def PastCondition : OutPc -> Prop
  | .condition _ => False
  | _ => True

theorem pastCondition_of_outStep (stepped : stats.outStep printed pc = (printed', .inl pc'))
    (past : PastCondition pc') : PastCondition pc ∨ exists func, stats.numCalls func ≠ 0 := by
  cases ThreadStats.outAccess stepped with
  | someCall func some => exact Or.inr ⟨func, some⟩
  | noTrylock | noLock => exact past.elim
  | _ => exact Or.inl trivial

theorem nothing_of_outStep (before : ¬PastCondition pc)
    (stepped : stats.outStep printed pc = (printed', .inr text)) : text = .nothing := by
  cases ThreadStats.outAccess stepped with
  | noUnlock => rfl
  | _ => exact absurd trivial before

end reader

end Timing

end Interpose
end Autolock
