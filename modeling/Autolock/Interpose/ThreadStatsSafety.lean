import Autolock.Concurrency.Exclusive
import Autolock.Data.LinkedList
import Autolock.Interpose.ThreadStats

namespace Autolock
namespace Interpose

open Concurrency Data

/-!
# What the list of measurements loses and what it does not

No node is lost and none is pushed behind the seal.  A thread that finds the seal
however goes on with `NULL` for its node, and writes to it at the end of the same
call.  So a run is free of that exactly if no thread finds the seal.
-/

namespace Timing

/-! ## What is to be shown -/

section spec

variable {Tid : Type}

def pushed? : TimingEvent -> Option Nat
  | .pushed n => some n
  | _ => none

def output? : TimingEvent -> Option Nat
  | .output n _ => some n
  | _ => none

/-- The nodes pushed, in order. -/
def pushes (trace : List (Option Tid × TimingEvent)) : List Nat :=
  trace.filterMap fun label => pushed? label.2

/-- The nodes the destructor has printed, in order. -/
def outputs (trace : List (Option Tid × TimingEvent)) : List Nat :=
  trace.filterMap fun label => output? label.2

/-- The destructor has taken the list. -/
def Sealed (trace : List (Option Tid × TimingEvent)) : Prop :=
  exists label, label ∈ trace ∧ label.2 = .sealed

/-- The destructor prints a node at most once and only if it has been pushed, can
always finish, and then has printed every node exactly once. -/
structure PrintedOnce (trace : List (Option Tid × TimingEvent))
    (s : Machine (Option Tid) StatsList TimingThread) : Prop where
  once : forall n, (outputs trace).count n ≤ 1
  pushed : forall n, n ∈ outputs trace -> n ∈ pushes trace
  all : s.thread none = .destructor .done ->
    forall n, n ∈ pushes trace -> (outputs trace).count n = 1
  finishes : s.thread none ≠ .destructor .waiting ->
    exists events m, (program Tid).Solo none s.shared (s.thread none) events m (.destructor .done)

def NoPushAfterSeal (trace : List (Option Tid × TimingEvent)) : Prop :=
  forall before label n, before ++ [label] <+: trace -> label.2 = .pushed n -> ¬Sealed before

/-- The thread is about to store through `I_thread_stats`, which is `NULL`, or has done so. -/
def DereferencesNull : TimingThread -> Prop
  | .timed (.assign none _) _ _ | .timed .crashed _ _ => True
  | _ => False

instance : DecidablePred DereferencesNull := by
  intro l
  unfold DereferencesNull
  split <;> infer_instance

/-- A thread has found the seal in the place of the list. -/
def FoundSeal (trace : List (Option Tid × TimingEvent)) : Prop :=
  exists label, label ∈ trace ∧ label.2 = .loaded .sealed

theorem pushes_concat (trace : List (Option Tid × TimingEvent)) (label : Option Tid × TimingEvent) :
    pushes (trace ++ [label]) = pushes trace ++ (pushed? label.2).toList := by
  rw [pushes, List.filterMap_append, List.filterMap_cons, List.filterMap_nil]
  cases pushed? label.2 <;> rfl

theorem outputs_concat (trace : List (Option Tid × TimingEvent))
    (label : Option Tid × TimingEvent) :
    outputs (trace ++ [label]) = outputs trace ++ (output? label.2).toList := by
  rw [outputs, List.filterMap_append, List.filterMap_cons, List.filterMap_nil]
  cases output? label.2 <;> rfl

theorem pushes_concat_of_none {trace : List (Option Tid × TimingEvent)}
    {label : Option Tid × TimingEvent} (quiet : pushed? label.2 = none) :
    pushes (trace ++ [label]) = pushes trace := by
  rw [pushes_concat, quiet, Option.toList_none, List.append_nil]

theorem outputs_concat_of_none {trace : List (Option Tid × TimingEvent)}
    {label : Option Tid × TimingEvent} (quiet : output? label.2 = none) :
    outputs (trace ++ [label]) = outputs trace := by
  rw [outputs_concat, quiet, Option.toList_none, List.append_nil]

theorem sealed_concat (trace : List (Option Tid × TimingEvent))
    (label : Option Tid × TimingEvent) :
    Sealed (trace ++ [label]) <-> Sealed trace ∨ label.2 = .sealed := by
  simp only [Sealed, List.mem_append, List.mem_singleton, or_and_right, exists_or, exists_eq_left]

theorem foundSeal_concat (trace : List (Option Tid × TimingEvent))
    (label : Option Tid × TimingEvent) :
    FoundSeal (trace ++ [label]) <-> FoundSeal trace ∨ label.2 = .loaded .sealed := by
  simp only [FoundSeal, List.mem_append, List.mem_singleton, or_and_right, exists_or,
    exists_eq_left]

end spec

/-! ## What a step does -/

/-- The link of each node. -/
def next (m : StatsList) (n : Nat) : StatsPtr :=
  (m.nodes n).next

/-- The steps of a thread and of the destructor, one by one. -/
inductive Moves (m : StatsList) : TimingThread -> StatsList -> TimingThread -> TimingEvent -> Prop
  | allocates (start : UInt64) (warmup : UInt32) :
      Moves m (.timed .idle warmup none)
        { m with
          nodes := Function.update m.nodes m.allocated ThreadStats.zero
          allocated := m.allocated + 1 }
        (.timed (.load m.allocated start) warmup none) .internal
  | measures (n : Nat) (stats : ThreadStats) (linked : stats.next = next m n)
      (warmup warmup' : UInt32) :
      Moves m (.timed .idle warmup (some n))
        { m with nodes := Function.update m.nodes n stats } (.timed .idle warmup' (some n)) .internal
  | counts (n : Nat) (stats : ThreadStats) (linked : stats.next = next m n) (warmup : UInt32)
      (pc : CountPc) :
      Moves m (.timed .idle warmup (some n))
        { m with nodes := Function.update m.nodes n stats } (.timed (.count pc) warmup (some n))
        .internal
  | goesOn (n : Nat) (stats : ThreadStats) (linked : stats.next = next m n) (warmup : UInt32)
      (pc pc' : CountPc) :
      Moves m (.timed (.count pc) warmup (some n))
        { m with nodes := Function.update m.nodes n stats } (.timed (.count pc') warmup (some n))
        .internal
  | counted (n : Nat) (stats : ThreadStats) (linked : stats.next = next m n) (warmup : UInt32)
      (pc : CountPc) :
      Moves m (.timed (.count pc) warmup (some n))
        { m with nodes := Function.update m.nodes n stats } (.timed .idle warmup (some n)) .internal
  | warmedUp : Moves m (.timed .idle 0 none) m (.timed .crashed 0 none) .internal
  | findsSeal (n : Nat) (start : UInt64) (warmup : UInt32) (stats : Option Nat)
      (hasPrintedHdr : Bool) (found : m.head = .sealed) :
      Moves m (.timed (.load n start) warmup stats) { m with hasPrintedHdr := hasPrintedHdr }
        (.timed (.assign none start) warmup stats) (.loaded m.head)
  | links (n : Nat) (start : UInt64) (warmup : UInt32) (stats : Option Nat)
      (unsealed : m.head ≠ .sealed) :
      Moves m (.timed (.load n start) warmup stats)
        { m with nodes := Function.update m.nodes n { m.nodes n with next := m.head } }
        (.timed (.exchange n m.head start) warmup stats) (.loaded m.head)
  | pushes (n : Nat) (expected : StatsPtr) (start : UInt64) (warmup : UInt32) (stats : Option Nat)
      (unchanged : m.head = expected) :
      Moves m (.timed (.exchange n expected start) warmup stats) { m with head := .node n }
        (.timed (.assign (some n) start) warmup stats) (.pushed n)
  | retries (n : Nat) (expected : StatsPtr) (start : UInt64) (warmup : UInt32)
      (stats : Option Nat) :
      Moves m (.timed (.exchange n expected start) warmup stats) m
        (.timed (.load n start) warmup stats) .internal
  | dereferences (start : UInt64) (warmup warmup' : UInt32) (stats : Option Nat) :
      Moves m (.timed (.assign none start) warmup stats) m (.timed .crashed warmup' none) .internal
  | starts (n : Nat) (start : UInt64) (stats : ThreadStats) (linked : stats.next = next m n)
      (warmup warmup' : UInt32) (old : Option Nat) :
      Moves m (.timed (.assign (some n) start) warmup old)
        { m with nodes := Function.update m.nodes n stats } (.timed .idle warmup' (some n)) .internal
  | seals : Moves m (.destructor .waiting) { m with head := .sealed }
      (.destructor (.walk m.head)) .sealed
  | finishes : Moves m (.destructor (.walk .null)) m (.destructor .done) .internal
  | enters (n : Nat) (pc : OutPc) :
      Moves m (.destructor (.walk (.node n))) m (.destructor (.out n (next m n) pc)) (.entered n)
  | reads (n : Nat) (p : StatsPtr) (pc pc' : OutPc) (hasPrintedHdr : Bool) :
      Moves m (.destructor (.out n p pc)) { m with hasPrintedHdr := hasPrintedHdr }
        (.destructor (.out n p pc')) .internal
  | prints (n : Nat) (p : StatsPtr) (pc : OutPc) (hasPrintedHdr : Bool) (text : StatsOutput) :
      Moves m (.destructor (.out n p pc)) { m with hasPrintedHdr := hasPrintedHdr }
        (.destructor (.walk p)) (.output n text)

theorem moves_of_timingEnd {func : TimedFunc} {start timeEnd : UInt64} {m m' : StatsList}
    {warmup : UInt32} {stats : Option Nat} {l' : TimingThread}
    (ended : timingEnd func start timeEnd m warmup stats = (m', l')) :
    Moves m (.timed .idle warmup stats) m' l' .internal := by
  unfold timingEnd at ended
  split at ended
  · cases stats with
    | none =>
        cases ended
        exact .allocates start warmup
    | some n =>
        cases ended
        exact .measures n { m.nodes n with timeStart := start } rfl warmup (warmup - 1)
  · next warmed =>
    have zero : warmup = 0 := not_not.mp warmed
    subst zero
    cases stats with
    | none =>
        cases ended
        exact .warmedUp
    | some n =>
        cases ended
        exact .counts n _ (ThreadStats.addCall_next ..) 0 _

theorem moves_of_timedStep {m m' : StatsList} {pc : TimedPc} {warmup : UInt32}
    {stats : Option Nat} {l' : TimingThread} {event : TimingEvent}
    (stepped : timedStep m pc warmup stats = some (m', l', event)) :
    Moves m (.timed pc warmup stats) m' l' event := by
  cases pc with
  | idle | crashed => exact absurd stepped nofun
  | load n start =>
      simp only [timedStep] at stepped
      split at stepped
      · next found =>
          cases stepped
          exact .findsSeal n start warmup stats _ found
      · next unsealed =>
          cases stepped
          exact .links n start warmup stats unsealed
  | exchange n expected start =>
      simp only [timedStep] at stepped
      split at stepped
      · next unchanged =>
          cases stepped
          exact .pushes n expected start warmup stats unchanged
      · cases stepped
        exact .retries n expected start warmup stats
  | assign added start =>
      cases added with
      | none =>
          cases stepped
          exact .dereferences start warmup _ stats
      | some n =>
          cases stepped
          exact .starts n start { m.nodes n with timeStart := start } rfl warmup _ stats
  | count counting =>
      cases stats with
      | none => exact absurd stepped nofun
      | some n =>
          have linked := (m.nodes n).countStep_next counting
          cases stepped
          generalize (m.nodes n).countStep counting = result at linked ⊢
          rcases result with ⟨stats, _ | counting'⟩
          · exact .counted n stats linked warmup counting
          · exact .goesOn n stats linked warmup counting counting'

theorem moves_of_destructorStep {m m' : StatsList} {pc : DestructorPc} {l' : TimingThread}
    {event : TimingEvent} (stepped : destructorStep m pc = some (m', l', event)) :
    Moves m (.destructor pc) m' l' event := by
  cases pc with
  | waiting | done => exact absurd stepped nofun
  | walk stats =>
      cases stats with
      | null =>
          cases stepped
          exact .finishes
      | node n =>
          cases stepped
          exact .enters n _
      | sealed => exact absurd stepped nofun
  | out n p pc =>
      simp only [destructorStep] at stepped
      split at stepped <;> cases stepped
      · exact .reads n p pc _ _
      · exact .prints n p pc _ _

theorem moves_of_step {Tid : Type} {t : Option Tid} {action : TimingAction} {m m' : StatsList}
    {l l' : TimingThread} {event : TimingEvent}
    (stepped : (program Tid).step t action m l = some (m', l', event)) :
    Moves m l m' l' event := by
  cases l with
  | timed pc warmup stats =>
      cases action with
      | timed func start timeEnd =>
          cases pc with
          | idle =>
              cases stepped
              exact moves_of_timingEnd rfl
          | _ => exact absurd stepped nofun
      | run => exact moves_of_timedStep (by cases pc <;> exact stepped)
      | exit => cases pc <;> exact absurd stepped nofun
  | destructor pc =>
      cases action with
      | timed => cases pc <;> exact absurd stepped nofun
      | run => exact moves_of_destructorStep (by cases pc <;> exact stepped)
      | exit =>
          cases pc with
          | waiting =>
              cases stepped
              exact .seals
          | _ => exact absurd stepped nofun

/-! ## The nodes that are not in the list yet -/

/-- The thread is about to push the node. -/
def Pushing (n : Nat) : TimingThread -> Prop
  | .timed (.load own _) _ _ | .timed (.exchange own _ _) _ _ => own = n
  | _ => False

/-- The thread is about to push the node where it has found this list. -/
def Expecting (n : Nat) (expected : StatsPtr) : TimingThread -> Prop
  | .timed (.exchange own found _) _ _ => own = n ∧ found = expected
  | _ => False

theorem Expecting.pushing {n : Nat} {expected : StatsPtr} {l : TimingThread}
    (expecting : Expecting n expected l) : Pushing n l := by
  unfold Expecting at expecting
  split at expecting
  · exact expecting.1
  · exact expecting.elim

variable {Tid : Type} {trace : List (Option Tid × TimingEvent)} {m m' : StatsList}
  {thread : Option Tid -> TimingThread} {t : Option Tid} {l l' : TimingThread}
  {event : TimingEvent}

structure Private (trace : List (Option Tid × TimingEvent)) (m : StatsList)
    (thread : Option Tid -> TimingThread) : Prop where
  allocated : forall n u, Pushing n (thread u) -> n < m.allocated
  pushed : forall n, n ∈ pushes trace -> n < m.allocated
  unpushed : forall n u, Pushing n (thread u) -> n ∉ pushes trace
  owner : forall n, Exclusive (Pushing n) thread
  expecting : forall n expected u, Expecting n expected (thread u) ->
    next m n = expected ∧ expected ≠ .sealed
  nodup : (pushes trace).Nodup

theorem next_update (m : StatsList) (n : Nat) (stats : ThreadStats) :
    next { m with nodes := Function.update m.nodes n stats } =
      Function.update (next m) n stats.next := by
  funext k
  simp only [next, Function.update_apply]
  split <;> rfl

theorem allocated_le (moves : Moves m l m' l' event) : m.allocated ≤ m'.allocated := by
  cases moves with
  | allocates start warmup => exact Nat.le_succ m.allocated
  | _ => exact Nat.le_refl m.allocated

/-- Only the thread that is about to push a node changes its link. -/
theorem next_kept (moves : Moves m l m' l' event) {n : Nat} (allocated : n < m.allocated)
    (others : ¬Pushing n l) : next m' n = next m n := by
  cases moves with
  | allocates start warmup =>
      change next { m with nodes := Function.update m.nodes m.allocated _ } n = _
      rw [next_update, Function.update_of_ne (Nat.ne_of_lt allocated)]
  | measures own stats linked | counts own stats linked | goesOn own stats linked
  | counted own stats linked | starts own start stats linked =>
      rw [next_update, linked, Function.update_eq_self]
  | links own start warmup stats unsealed =>
      rw [next_update, Function.update_of_ne (Ne.symm others)]
  | _ => rfl

/-- A thread that goes on pushing a node has been about to push it, or has just allocated it. -/
theorem pushing_of_moves (moves : Moves m l m' l' event) {n : Nat} (pushing : Pushing n l') :
    Pushing n l ∨ n = m.allocated ∧ n < m'.allocated := by
  cases moves with
  | allocates start warmup => exact Or.inr ⟨pushing.symm, pushing ▸ Nat.lt_succ_self _⟩
  | links | retries => exact Or.inl pushing
  | _ => exact pushing.elim

theorem pushed_of_moves (moves : Moves m l m' l' event) {n : Nat}
    (pushed : pushed? event = some n) :
    exists start warmup stats, l = .timed (.exchange n m.head start) warmup stats ∧
      l' = .timed (.assign (some n) start) warmup stats ∧ m' = { m with head := .node n } ∧
      event = .pushed n := by
  cases moves with
  | pushes own expected start warmup stats unchanged =>
      cases pushed
      rw [unchanged]
      exact ⟨start, warmup, stats, rfl, rfl, rfl, rfl⟩
  | _ => exact absurd pushed nofun

theorem mem_pushes_concat (here : thread t = l) (moves : Moves m l m' l' event) {n : Nat}
    (pushed : n ∈ pushes (trace ++ [(t, event)])) :
    n ∈ pushes trace ∨ Pushing n (thread t) ∧ ¬Pushing n l' := by
  rw [pushes_concat, List.mem_append, Option.mem_toList] at pushed
  refine pushed.imp_right fun now => ?_
  rcases pushed_of_moves moves now with ⟨start, warmup, stats, rfl, rfl, -⟩
  exact ⟨here ▸ rfl, id⟩

section step

variable [DecidableEq Tid] (own : Private trace m thread) (here : thread t = l)
  (moves : Moves m l m' l' event)

include own here moves

theorem owner_step (n : Nat) : Exclusive (Pushing n) (Function.update thread t l') := by
  by_cases new : n = m.allocated
  · refine Exclusive.enter fun u pushing => ?_
    exact absurd (own.allocated n u pushing) (Nat.not_lt.mpr (Nat.le_of_eq new.symm))
  · refine (own.owner n).keep fun pushing => ?_
    rw [here]
    exact (pushing_of_moves moves pushing).resolve_right fun allocated => new allocated.1

theorem pushing_allocated_step (n : Nat) (u : Option Tid)
    (pushing : Pushing n (Function.update thread t l' u)) : n < m'.allocated := by
  by_cases itself : u = t
  · rw [itself, Function.update_self] at pushing
    rcases pushing_of_moves moves pushing with before | ⟨-, allocated⟩
    · exact (own.allocated n t (here.symm ▸ before)).trans_le (allocated_le moves)
    · exact allocated
  · rw [Function.update_of_ne itself] at pushing
    exact (own.allocated n u pushing).trans_le (allocated_le moves)

theorem unpushed_step (n : Nat) (u : Option Tid)
    (pushing : Pushing n (Function.update thread t l' u)) :
    n ∉ pushes (trace ++ [(t, event)]) := by
  intro pushed
  by_cases itself : u = t
  · rw [itself, Function.update_self] at pushing
    rcases mem_pushes_concat here moves pushed with before | ⟨-, done⟩
    · rcases pushing_of_moves moves pushing with already | ⟨new, -⟩
      · exact own.unpushed n t (here.symm ▸ already) before
      · exact absurd (own.pushed n before) (Nat.not_lt.mpr (Nat.le_of_eq new.symm))
    · exact done pushing
  · rw [Function.update_of_ne itself] at pushing
    rcases mem_pushes_concat here moves pushed with before | ⟨mine, -⟩
    · exact own.unpushed n u pushing before
    · exact itself (own.owner n u t pushing mine)

theorem expecting_step (n : Nat) (expected : StatsPtr) (u : Option Tid)
    (expecting : Expecting n expected (Function.update thread t l' u)) :
    next m' n = expected ∧ expected ≠ .sealed := by
  by_cases itself : u = t
  · rw [itself, Function.update_self] at expecting
    cases moves with
    | links node start warmup stats unsealed =>
        rcases expecting with ⟨rfl, rfl⟩
        rw [next_update, Function.update_self]
        exact ⟨rfl, unsealed⟩
    | _ => exact expecting.elim
  · rw [Function.update_of_ne itself] at expecting
    rw [next_kept moves (own.allocated n u expecting.pushing)]
    · exact own.expecting n expected u expecting
    · rw [← here]
      exact fun mine => itself (own.owner n u t expecting.pushing mine)

theorem Private.step : Private (trace ++ [(t, event)]) m' (Function.update thread t l') where
  allocated := pushing_allocated_step own here moves
  pushed := by
    intro n pushed
    rcases mem_pushes_concat here moves pushed with before | ⟨mine, -⟩
    · exact (own.pushed n before).trans_le (allocated_le moves)
    · exact (own.allocated n t mine).trans_le (allocated_le moves)
  unpushed := unpushed_step own here moves
  owner := owner_step own here moves
  expecting := expecting_step own here moves
  nodup := by
    rw [pushes_concat]
    cases pushed : pushed? event with
    | none => simpa using own.nodup
    | some n =>
        rcases pushed_of_moves moves pushed with ⟨start, warmup, stats, rfl, -⟩
        have fresh : n ∉ pushes trace := own.unpushed n t (here ▸ rfl)
        rw [Option.toList_some, ← List.concat_eq_append]
        exact own.nodup.concat fresh

end step

/-! ## The list and the destructor -/

/-- The nodes that the destructor has not printed start here. -/
def front (head : StatsPtr) : DestructorPc -> StatsPtr
  | .waiting => head
  | .walk stats => stats
  | .out n _ _ => .node n
  | .done => .null

/-- The destructor has loaded the link of the node that it reads. -/
def LinkLoaded (m : StatsList) : DestructorPc -> Prop
  | .out n p _ => p = next m n
  | _ => True

structure Walked (trace : List (Option Tid × TimingEvent)) (m : StatsList) (pc : DestructorPc) :
    Prop where
  sealed : m.head = .sealed <-> pc ≠ .waiting
  silent : pc = .waiting -> outputs trace = []
  loaded : LinkLoaded m pc
  remaining : exists nodes, (pushes trace).reverse = outputs trace ++ nodes ∧
    Linked StatsPtr.node .null (next m) (front m.head pc) nodes

/-- A pushed node keeps its link. -/
theorem linked_step (own : Private trace m thread) (here : thread t = l)
    (moves : Moves m l m' l' event) {p : StatsPtr} {nodes : List Nat}
    (linked : Linked StatsPtr.node .null (next m) p nodes)
    (pushed : forall n, n ∈ nodes -> n ∈ pushes trace) :
    Linked StatsPtr.node .null (next m') p nodes := by
  refine linked.congr fun n member => next_kept moves (own.pushed n (pushed n member)) ?_
  intro pushing
  exact own.unpushed n t (here.symm ▸ pushing) (pushed n member)

theorem remaining_pushed {nodes : List Nat}
    (remaining : (pushes trace).reverse = outputs trace ++ nodes) (n : Nat) (member : n ∈ nodes) :
    n ∈ pushes trace := by
  rw [← List.mem_reverse, remaining]
  exact List.mem_append_right _ member

/-- The link that has been loaded stays what it is. -/
theorem Walked.loaded_step {pc : DestructorPc} (walked : Walked trace m pc)
    (own : Private trace m thread) (here : thread t = l) (moves : Moves m l m' l' event) :
    LinkLoaded m' pc := by
  rcases walked with ⟨-, -, loaded, nodes, remaining, linked⟩
  cases pc with
  | out n p out =>
      rcases linked.of_address nofun with ⟨first, rest, rfl, same, -⟩
      cases same
      have pushed := remaining_pushed remaining n List.mem_cons_self
      refine loaded.trans (next_kept moves (own.pushed n pushed) ?_).symm
      intro pushing
      exact own.unpushed n t (here.symm ▸ pushing) pushed
  | _ => trivial

/-- A thread that does not push leaves the list alone. -/
theorem quiet_of_moves {pc : TimedPc} {warmup : UInt32} {stats : Option Nat}
    (moves : Moves m (.timed pc warmup stats) m' l' event) (quiet : pushed? event = none) :
    m'.head = m.head ∧ output? event = none := by
  cases moves with
  | pushes => exact absurd quiet nofun
  | _ => exact ⟨rfl, rfl⟩

theorem Walked.timed_step {pc : DestructorPc} (walked : Walked trace m pc)
    (own : Private trace m thread) {timed : TimedPc} {warmup : UInt32} {stats : Option Nat}
    (here : thread t = .timed timed warmup stats)
    (moves : Moves m (.timed timed warmup stats) m' l' event) :
    Walked (trace ++ [(t, event)]) m' pc := by
  rcases walked.remaining with ⟨nodes, remaining, linked⟩
  have linked' := linked_step own here moves linked (remaining_pushed remaining)
  have loaded := walked.loaded_step own here moves
  cases pushed : pushed? event with
  | none =>
      rcases quiet_of_moves moves pushed with ⟨sameHead, quiet⟩
      have samePushes : pushes (trace ++ [(t, event)]) = pushes trace :=
        pushes_concat_of_none pushed
      have sameOutputs : outputs (trace ++ [(t, event)]) = outputs trace :=
        outputs_concat_of_none quiet
      exact
        { sealed := sameHead ▸ walked.sealed
          silent := sameOutputs ▸ walked.silent
          loaded := loaded
          remaining := ⟨nodes, by rw [samePushes, sameOutputs, remaining], sameHead ▸ linked'⟩ }
  | some n =>
      rcases pushed_of_moves moves pushed with ⟨start, warmup, stats, at', -, rfl, rfl⟩
      rw [at'] at here
      rcases own.expecting n m.head t (here ▸ ⟨rfl, rfl⟩) with ⟨link, unsealed⟩
      have waiting : pc = .waiting := not_not.mp (walked.sealed.not.mp unsealed)
      subst waiting
      have silent := walked.silent rfl
      have sameOutputs : outputs (trace ++ [(t, TimingEvent.pushed n)]) = [] :=
        (outputs_concat_of_none rfl).trans silent
      exact
        { sealed := ⟨nofun, fun absurd' => absurd rfl absurd'⟩
          silent := fun _ => sameOutputs
          loaded := trivial
          remaining := by
            refine ⟨n :: nodes, ?_, rfl, ?_⟩
            · rw [silent, List.nil_append] at remaining
              rw [sameOutputs, pushes_concat, List.reverse_append, remaining]
              rfl
            · change Linked _ _ _ (next m n) nodes
              rw [link]
              exact linked' }

/-- The destructor prints the nodes from the front of the list. -/
theorem Walked.destructor_step {pc : DestructorPc} (walked : Walked trace m pc)
    (moves : Moves m (.destructor pc) m' l' event) :
    exists pc', l' = .destructor pc' ∧ Walked (trace ++ [(t, event)]) m' pc' := by
  rcases walked with ⟨sealed, silent, loaded, nodes, remaining, linked⟩
  cases moves with
  | seals =>
      refine ⟨_, rfl, ⟨fun _ => nofun, fun _ => rfl⟩, nofun, trivial, nodes, ?_, linked⟩
      rwa [pushes_concat_of_none rfl, outputs_concat_of_none rfl]
  | finishes =>
      have already : m.head = .sealed := sealed.mpr nofun
      refine ⟨_, rfl, ⟨fun _ => nofun, fun _ => already⟩, nofun, trivial, nodes, ?_, linked⟩
      rwa [pushes_concat_of_none rfl, outputs_concat_of_none rfl]
  | enters n pc =>
      have already : m.head = .sealed := sealed.mpr nofun
      refine ⟨_, rfl, ⟨fun _ => nofun, fun _ => already⟩, nofun, rfl, nodes, ?_, linked⟩
      rwa [pushes_concat_of_none rfl, outputs_concat_of_none rfl]
  | reads n p pc pc' hasPrintedHdr =>
      have already : m.head = .sealed := sealed.mpr nofun
      refine ⟨_, rfl, ⟨fun _ => nofun, fun _ => already⟩, nofun, loaded, nodes, ?_, linked⟩
      rwa [pushes_concat_of_none rfl, outputs_concat_of_none rfl]
  | prints n p pc hasPrintedHdr text =>
      have already : m.head = .sealed := sealed.mpr nofun
      rcases linked.of_address nofun with ⟨first, rest, rfl, same, behind⟩
      cases same
      cases loaded
      refine ⟨_, rfl, ⟨fun _ => nofun, fun _ => already⟩, nofun, trivial, rest, ?_, behind⟩
      rw [pushes_concat_of_none rfl, outputs_concat, remaining, List.append_assoc]
      rfl

/-! ## Every run -/

structure Inv (trace : List (Option Tid × TimingEvent)) (m : StatsList)
    (thread : Option Tid -> TimingThread) : Prop where
  own : Private trace m thread
  destructor : exists pc, thread none = .destructor pc ∧ Walked trace m pc
  timed : forall t, exists pc warmup stats, thread (some t) = .timed pc warmup stats
  sealed : m.head = .sealed <-> Sealed trace
  ordered : NoPushAfterSeal trace
  fresh : forall t warmup, thread t = .timed .idle warmup none -> warmup = warmupCalls
  null : (exists t, DereferencesNull (thread t)) <-> FoundSeal trace

section step

variable [DecidableEq Tid] (inv : Inv trace m thread) (here : thread t = l)
  (moves : Moves m l m' l' event)

include inv here moves

theorem destructor_step : exists pc, Function.update thread t l' none = .destructor pc ∧
    Walked (trace ++ [(t, event)]) m' pc := by
  rcases inv.destructor with ⟨pc, there, walked⟩
  cases t with
  | none =>
      rw [there] at here
      subst here
      rcases walked.destructor_step moves with ⟨pc', rfl, walked'⟩
      exact ⟨pc', Function.update_self .., walked'⟩
  | some t =>
      rcases inv.timed t with ⟨timed, warmup, stats, itself⟩
      rw [itself] at here
      subst here
      refine ⟨pc, ?_, walked.timed_step inv.own itself moves⟩
      rwa [Function.update_of_ne (Option.some_ne_none t).symm]

theorem timed_step (u : Tid) :
    exists pc warmup stats, Function.update thread t l' (some u) = .timed pc warmup stats := by
  by_cases itself : some u = t
  · subst itself
    rcases inv.timed u with ⟨timed, warmup, stats, there⟩
    rw [there] at here
    subst here
    rw [Function.update_self]
    cases moves <;> exact ⟨_, _, _, rfl⟩
  · rw [Function.update_of_ne itself]
    exact inv.timed u

omit [DecidableEq Tid] in
/-- A node is pushed onto a list that has not been taken. -/
theorem unsealed_of_pushed {n : Nat} (pushed : pushed? event = some n) :
    m.head ≠ .sealed ∧ ¬Sealed trace := by
  rcases pushed_of_moves moves pushed with ⟨start, warmup, stats, rfl, -⟩
  have unsealed := (inv.own.expecting n m.head t (here ▸ ⟨rfl, rfl⟩)).2
  exact ⟨unsealed, inv.sealed.not.mp unsealed⟩

omit [DecidableEq Tid] in
theorem sealed_step : m'.head = .sealed <-> Sealed (trace ++ [(t, event)]) := by
  rw [sealed_concat, ← inv.sealed]
  cases moves with
  | pushes n expected start warmup stats unchanged =>
      have unsealed := (unsealed_of_pushed inv here (.pushes n expected start warmup stats unchanged)
        rfl).1
      exact ⟨nofun, fun either => either.elim (absurd · unsealed) nofun⟩
  | seals => exact ⟨fun _ => Or.inr rfl, fun _ => rfl⟩
  | _ => exact ⟨Or.inl, fun either => either.elim id nofun⟩

omit [DecidableEq Tid] in
theorem ordered_step : NoPushAfterSeal (trace ++ [(t, event)]) := by
  intro before label n begins pushed
  rcases begins_concat begins with ⟨rfl, same⟩ | earlier
  · cases same
    have now : pushed? event = some n := congrArg pushed? pushed
    exact (unsealed_of_pushed inv here moves now).2
  · exact inv.ordered before label n earlier pushed

theorem fresh_step (u : Option Tid) (warmup : UInt32)
    (there : Function.update thread t l' u = .timed .idle warmup none) : warmup = warmupCalls := by
  by_cases itself : u = t
  · rw [itself, Function.update_self] at there
    subst there
    cases moves
  · rw [Function.update_of_ne itself] at there
    exact inv.fresh u warmup there

omit [DecidableEq Tid] in
/-- A thread comes to dereference `NULL` only by finding the seal. -/
theorem foundSeal_of_null (null : DereferencesNull l') : FoundSeal (trace ++ [(t, event)]) := by
  rw [foundSeal_concat]
  cases moves with
  | warmedUp => exact absurd (inv.fresh t 0 here) (by decide)
  | findsSeal n start warmup stats hasPrintedHdr found =>
      dsimp only
      rw [found]
      exact Or.inr rfl
  | dereferences start warmup warmup' stats => exact Or.inl (inv.null.mp ⟨t, here ▸ trivial⟩)
  | _ => exact null.elim

theorem null_step : (exists u, DereferencesNull (Function.update thread t l' u)) <->
    FoundSeal (trace ++ [(t, event)]) := by
  constructor
  · rintro ⟨u, null⟩
    by_cases itself : u = t
    · rw [itself, Function.update_self] at null
      exact foundSeal_of_null inv here moves null
    · rw [Function.update_of_ne itself] at null
      exact (foundSeal_concat ..).mpr (Or.inl (inv.null.mp ⟨u, null⟩))
  · intro found
    rcases (foundSeal_concat ..).mp found with before | now
    · refine exists_update (inv.null.mpr before) fun null => ?_
      rw [here] at null
      cases moves with
      | dereferences => trivial
      | _ => exact null.elim
    · cases moves with
      | findsSeal => exact exists_update_self trivial
      | links n start warmup stats unsealed => exact absurd (TimingEvent.loaded.inj now) unsealed
      | _ => exact absurd now nofun

theorem Inv.step : Inv (trace ++ [(t, event)]) m' (Function.update thread t l') where
  own := inv.own.step here moves
  destructor := destructor_step inv here moves
  timed := timed_step inv here moves
  sealed := sealed_step inv here moves
  ordered := ordered_step inv here moves
  fresh := fresh_step inv here moves
  null := null_step inv here moves

end step

theorem inv_init {s : Machine (Option Tid) StatsList TimingThread} (initial : init s) :
    Inv [] s.shared s.thread := by
  rcases s with ⟨m, thread⟩
  rcases initial with ⟨empty, none', idle, waiting⟩
  dsimp only at empty none' idle waiting
  have nobody : forall {property : TimingThread -> Prop},
      ¬property (.timed .idle warmupCalls none) -> ¬property (.destructor .waiting) ->
      forall t, ¬property (thread t) := by
    intro property timed destructor t
    cases t with
    | none => rwa [waiting]
    | some t => rwa [idle t]
  exact
    { own :=
        { allocated := fun n u pushing => absurd pushing (nobody id id u)
          pushed := nofun
          unpushed := nofun
          owner := fun n u _ pushing => absurd pushing (nobody id id u)
          expecting := fun n expected u expecting => absurd expecting (nobody id id u)
          nodup := List.nodup_nil }
      destructor := by
        refine ⟨.waiting, waiting, ⟨fun sealed => ?_, absurd rfl⟩, fun _ => rfl, trivial, [], rfl, empty⟩
        rw [empty] at sealed
        exact absurd sealed nofun
      timed := fun t => ⟨_, _, _, idle t⟩
      sealed := by
        rw [empty]
        exact ⟨nofun, nofun⟩
      ordered := fun before label n begins => absurd begins not_begins_nil
      fresh := by
        intro t warmup there
        cases t with
        | none => exact absurd (waiting.symm.trans there) nofun
        | some t =>
            cases (idle t).symm.trans there
            rfl
      null := ⟨fun ⟨t, null⟩ => absurd null (nobody id id t), nofun⟩ }

/-- How many accesses `I_thread_stats_out` has before it at most. -/
def accessesLeft : OutPc -> Nat
  | .condition .trylock => 13
  | .condition .lock => 12
  | .condition .unlock => 11
  | .historyIdx => 10
  | .timeHistory _ => 9
  | .timeStart _ => 8
  | .exchange _ => 7
  | .arguments _ _ numCalls times => (3 - numCalls.length) + (3 - times.length)

theorem accessesLeft_outStep {stats : ThreadStats} {printed printed' : Bool} {pc pc' : OutPc}
    (stepped : stats.outStep printed pc = (printed', .inl pc')) :
    accessesLeft pc' < accessesLeft pc := by
  have length : ThreadStats.funcs.length = 3 := rfl
  cases ThreadStats.outAccess stepped with
  | someCall func some => cases func <;> decide
  | numCalls header timeTotal calls times func more | time header timeTotal calls times func more =>
      have bound := (List.getElem?_eq_some_iff.mp more).1
      simp only [accessesLeft, List.length_append, List.length_singleton]
      omega
  | _ => exact Nat.lt_succ_self _

section solo

variable (Tid) {p : StatsPtr} {nodes : List Nat}

/-- The destructor comes out of `I_thread_stats_out`, with the list as it was. -/
theorem solo_out (linked : Linked StatsPtr.node .null (next m) p nodes) (n : Nat) (pc : OutPc) :
    exists events m', (program Tid).Solo none m (.destructor (.out n p pc)) events m'
      (.destructor (.walk p)) ∧ Linked StatsPtr.node .null (next m') p nodes := by
  induction left : accessesLeft pc using Nat.strong_induction_on generalizing m pc with
  | _ bound inductionHypothesis =>
      subst left
      rcases stepped : (m.nodes n).outStep m.hasPrintedHdr pc with ⟨printed, pc' | text⟩
      · have first : (program Tid).step none .run m (.destructor (.out n p pc)) =
            some ({ m with hasPrintedHdr := printed }, .destructor (.out n p pc'), .internal) := by
          simp only [program, destructorStep, stepped]
        have kept : Linked StatsPtr.node .null (next { m with hasPrintedHdr := printed }) p nodes :=
          linked
        rcases inductionHypothesis _ (accessesLeft_outStep stepped) kept pc' rfl with
          ⟨events, m', solo, linked'⟩
        exact ⟨_, m', .cons .run first solo, linked'⟩
      · have only : (program Tid).step none .run m (.destructor (.out n p pc)) =
            some ({ m with hasPrintedHdr := printed }, .destructor (.walk p), .output n text) := by
          simp only [program, destructorStep, stepped]
        exact ⟨_, { m with hasPrintedHdr := printed }, .cons .run only (.refl _ _), linked⟩

/-- The destructor comes to the end of the list. -/
theorem solo_destroy (linked : Linked StatsPtr.node .null (next m) p nodes) :
    exists events m', (program Tid).Solo none m (.destructor (.walk p)) events m'
      (.destructor .done) := by
  induction nodes generalizing m p with
  | nil =>
      cases linked
      exact ⟨_, m, .cons .run rfl (.refl m _)⟩
  | cons n nodes inductionHypothesis =>
      rcases linked with ⟨rfl, linked⟩
      rcases solo_out Tid linked n (.condition .trylock) with ⟨events, m', out, linked'⟩
      rcases inductionHypothesis linked' with ⟨events', m'', solo⟩
      exact ⟨_, m'', .cons .run rfl (out.append solo)⟩

end solo

variable {s : Machine (Option Tid) StatsList TimingThread}

theorem printedOnce_of_inv (inv : Inv trace s.shared s.thread) : PrintedOnce trace s := by
  rcases inv.destructor with ⟨pc, there, walked⟩
  rcases walked.remaining with ⟨nodes, remaining, linked⟩
  have nodup : (outputs trace ++ nodes).Nodup := by
    rw [← remaining]
    exact List.nodup_reverse.mpr inv.own.nodup
  have once : (outputs trace).Nodup := nodup.of_append_left
  exact
    { once := List.nodup_iff_count_le_one.mp once
      pushed := by
        intro n printed
        rw [← List.mem_reverse, remaining]
        exact List.mem_append_left _ printed
      all := by
        intro done n pushed
        cases there.symm.trans done
        have none' : nodes = [] := linked.eq_nil nofun
        rw [← List.mem_reverse, remaining, none', List.append_nil] at pushed
        exact List.count_eq_one_of_mem once pushed
      finishes := by
        intro taken
        rw [there] at taken ⊢
        cases pc with
        | waiting => exact absurd rfl taken
        | walk stats => exact solo_destroy Tid linked
        | out n p pc =>
            have loaded : p = next s.shared n := walked.loaded
            subst loaded
            rcases linked.of_address nofun with ⟨first, rest, rfl, same, behind⟩
            cases same
            rcases solo_out Tid behind n pc with ⟨events, m', out, linked'⟩
            rcases solo_destroy Tid linked' with ⟨events', m'', solo⟩
            exact ⟨_, m'', out.append solo⟩
        | done => exact ⟨[], s.shared, .refl _ _⟩ }

variable [DecidableEq Tid]

theorem inv_of_run (run : (system Tid).Run TransitionSystem.unguarded trace s) :
    Inv trace s.shared s.thread := by
  refine run.invariant (fun trace s => Inv trace s.shared s.thread) (fun _ => inv_init) ?_
  intro trace s label s' inv moved _
  rcases Program.system_next moved with ⟨action, m', l', stepped, rfl⟩
  exact inv.step rfl (moves_of_step stepped)

/-- In every run each node is printed once and none is pushed after the seal, and
no thread dereferences `NULL`, exactly if none has found the seal. -/
theorem printedOnce_and_notNull_iff
    (run : (system Tid).Run TransitionSystem.unguarded trace s) :
    (PrintedOnce trace s ∧ NoPushAfterSeal trace ∧ forall t, ¬DereferencesNull (s.thread t)) <->
      forall label, label ∈ trace -> label.2 ≠ .loaded .sealed := by
  have inv := inv_of_run run
  constructor
  · rintro ⟨-, -, safe⟩ label member found
    rcases inv.null.mpr ⟨label, member, found⟩ with ⟨t, null⟩
    exact safe t null
  · intro unfound
    refine ⟨printedOnce_of_inv inv, inv.ordered, fun t null => ?_⟩
    rcases inv.null.mp ⟨t, null⟩ with ⟨label, member, found⟩
    exact unfound label member found

def untimed : Machine (Option Nat) StatsList TimingThread where
  shared := ⟨.null, fun _ => ThreadStats.zero, 0, false⟩
  thread := fun t => t.elim (.destructor .waiting) fun _ => .timed .idle warmupCalls none

theorem init_untimed : init untimed :=
  ⟨rfl, rfl, fun _ => rfl, rfl⟩

/-- A call, and then the destructor. -/
def callThenExit : List (Option Nat × TimingAction) :=
  [(some 0, .timed .lock 1 2), (some 0, .run), (some 0, .run), (some 0, .run),
    (none, .exit), (none, .run), (none, .run), (none, .run), (none, .run), (none, .run)]

theorem printedOnce_and_notNull_iff_callThenExit :
    let end' := (program Nat).play callThenExit untimed
    (PrintedOnce end'.2 end'.1 ∧ NoPushAfterSeal end'.2 ∧
        forall t, ¬DereferencesNull (end'.1.thread t)) <->
      forall label, label ∈ end'.2 -> label.2 ≠ .loaded .sealed :=
  printedOnce_and_notNull_iff (Program.run_play init_untimed callThenExit (by decide))

/-- The destructor, and then the first call of a thread. -/
def exitThenCall : List (Option Nat × TimingAction) :=
  [(none, .exit), (some 0, .timed .lock 1 2), (some 0, .run), (some 0, .run)]

/-- The thread has dereferenced `NULL`. -/
theorem exitThenCall_crashes :
    exists trace s, (system Nat).Run TransitionSystem.unguarded trace s ∧
      s.thread (some 0) = .timed .crashed 63 none ∧ DereferencesNull (s.thread (some 0)) :=
  ⟨_, _, Program.run_play init_untimed exitThenCall (by decide), by decide, by decide⟩

end Timing

end Interpose
end Autolock
