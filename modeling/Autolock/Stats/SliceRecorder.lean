import Autolock.Data.Loop
import Autolock.Stats.Recording
import Mathlib.Data.List.Count
import Mathlib.Data.List.Nodup

namespace Autolock
namespace Stats

open Data

/-!
# Which entities a slice records

`__add_autolock_stats` walks the red-black tree with `rb_next` from the entity
that it is given, and adds the picked and the current entity if it has not come
across them.  The tree is the list of its entities from left to right; the calls
that write into the buffer are recorded.
-/

namespace SliceRecorder

/-- A call of `auto_lock_stats_start`, `auto_lock_stats_add` or `auto_lock_stats_end`. -/
inductive StatsCall (Entity : Type) where
  | start
  | add (se : Entity) (idx : UInt32) (isPick isCurr : Bool)
  | finish (endIdx : UInt32)
  deriving DecidableEq, Repr

/-- The variables of the function, and its calls so far. -/
structure Recorder (Entity : Type) where
  calls : List (StatsCall Entity)
  i : UInt32
  hasPick : Bool
  hasCurr : Bool
  deriving DecidableEq, Repr

section code

variable {Entity : Type} [DecidableEq Entity]

/-- `rb_next`; an entity outside the tree has no neighbour. -/
def rbNext (tree : List Entity) (se : Entity) : Option Entity :=
  (tree.dropWhile (· ≠ se)).tail.head?

/-- `auto_lock_stats_add(task_of(se), i, is_pick, is_curr)` and `++i` -/
def Recorder.statsAdd (loop : Recorder Entity) (se : Entity) (isPick isCurr : Bool) :
    Recorder Entity :=
  { loop with
    calls := loop.calls ++ [.add se loop.i isPick isCurr]
    i := loop.i + 1 }

variable (tree : List Entity) (pick curr : Option Entity)

/-- The entity is added, and the flags remember which ones it has been. -/
def addQueued (loop : Recorder Entity) (first : Entity) : Recorder Entity :=
  let isPick : Bool := pick = some first
  let isCurr : Bool := curr = some first
  { loop.statsAdd first isPick isCurr with
    hasPick := loop.hasPick || isPick
    hasCurr := loop.hasCurr || isCurr }

/-- One round of the loop over the tree. -/
def queuedPass : Recorder Entity × Entity -> Pass (Recorder Entity × Entity) (Recorder Entity)
  | (loop, first) =>
      match rbNext tree first with
      | none => .done (addQueued pick curr loop first)
      | some next => .again (addQueued pick curr loop first, next)

/-- The loop, which is not entered for `NULL`. -/
def Walks (loop : Recorder Entity) (first : Option Entity) (queued : Recorder Entity) : Prop :=
  match first with
  | none => queued = loop
  | some first => Returns (queuedPass tree pick curr) (loop, first) queued

def addPick (loop : Recorder Entity) : Recorder Entity :=
  match pick with
  | none => loop
  | some pick =>
      if loop.hasPick then loop
      else
        let isCurr : Bool := curr = some pick
        { loop.statsAdd pick true isCurr with hasCurr := loop.hasCurr || isCurr }

def addCurr (loop : Recorder Entity) : Recorder Entity :=
  match curr with
  | none => loop
  | some curr =>
      if loop.hasCurr then loop
      else
        let isPick : Bool := pick = some curr
        loop.statsAdd curr isPick true

/-- `__add_autolock_stats(first, pick, curr)` makes the calls. -/
def AddsAutolockStats (first : Option Entity) (calls : List (StatsCall Entity)) : Prop :=
  if first = none ∧ pick = none then calls = []
  else
    exists queued, Walks tree pick curr ⟨[.start], 0, false, false⟩ first queued ∧
      let loop := addCurr pick curr (addPick pick curr queued)
      calls = loop.calls ++ [.finish loop.i]

/-- What `pick_next_entity` passes: the leftmost entity, or `curr` for an empty tree. -/
def firstOf : Option Entity :=
  match tree.head? with
  | none => curr
  | some left => some left

end code

/-! ## What is expected -/

/-- A recorded entity. -/
structure Entry (Entity : Type) where
  se : Entity
  isPick : Bool
  isCurr : Bool
  deriving DecidableEq, Repr

section expected

variable {Entity : Type}

/-- The entries at consecutive indices. -/
def addsFrom : Nat -> List (Entry Entity) -> List (StatsCall Entity)
  | _, [] => []
  | k, entry :: entries =>
      .add entry.se (UInt32.ofNat k) entry.isPick entry.isCurr :: addsFrom (k + 1) entries

/-- A slice with the entries; without any there is none. -/
def sliceCalls (entries : List (Entry Entity)) : List (StatsCall Entity) :=
  if entries = [] then []
  else .start :: addsFrom 0 entries ++ [.finish (UInt32.ofNat entries.length)]

/-- Nobody is lost, nobody is recorded twice, and the marks are where they belong. -/
structure Complete (tree : List Entity) (pick curr : Option Entity)
    (entries : List (Entry Entity)) : Prop where
  recorded : forall se,
    se ∈ entries.map Entry.se <-> se ∈ tree ∨ curr = some se ∨ pick = some se
  once : (entries.map Entry.se).Nodup
  picked : (entries.filter Entry.isPick).map Entry.se = pick.toList
  current : (entries.filter Entry.isCurr).map Entry.se = curr.toList

theorem addsFrom_append (k : Nat) (entries more : List (Entry Entity)) :
    addsFrom k (entries ++ more) = addsFrom k entries ++ addsFrom (k + entries.length) more := by
  induction entries generalizing k with
  | nil => rfl
  | cons entry entries inductionHypothesis =>
      rw [List.cons_append, addsFrom, inductionHypothesis, addsFrom, List.length_cons,
        Nat.add_assoc, Nat.add_comm 1]
      rfl

/-- The entities that the loop goes over. -/
def walked (tree : List Entity) (curr : Option Entity) : List Entity :=
  if tree = [] then curr.toList else tree

theorem mem_walked {tree : List Entity} {curr : Option Entity} {se : Entity}
    (member : se ∈ walked tree curr) :
    se ∈ tree ∨ curr = some se := by
  unfold walked at member
  split at member
  · exact Or.inr (Option.mem_toList.mp member)
  · exact Or.inl member

theorem mem_walked_of_mem {tree : List Entity} {se : Entity} (member : se ∈ tree)
    (curr : Option Entity) : se ∈ walked tree curr := by
  rwa [walked, if_neg (List.ne_nil_of_mem member)]

theorem walked_nodup {tree : List Entity} (nodup : tree.Nodup) (curr : Option Entity) :
    (walked tree curr).Nodup := by
  unfold walked
  split
  · cases curr with
    | none => exact List.nodup_nil
    | some se => exact List.nodup_singleton se
  · exact nodup

end expected

/-! ## What is recorded -/

section recorded

variable {Entity : Type} [DecidableEq Entity] {tree : List Entity} {pick curr : Option Entity}

def entryOf (pick curr : Option Entity) (se : Entity) : Entry Entity :=
  ⟨se, decide (pick = some se), decide (curr = some se)⟩

/-- The recorder when the entities have been added. -/
def recorderOf (pick curr : Option Entity) (order : List Entity) : Recorder Entity where
  calls := .start :: addsFrom 0 (order.map (entryOf pick curr))
  i := UInt32.ofNat order.length
  hasPick := order.any fun se => decide (pick = some se)
  hasCurr := order.any fun se => decide (curr = some se)

theorem statsAdd_recorderOf (order : List Entity) (se : Entity) :
    (recorderOf pick curr order).statsAdd se (decide (pick = some se)) (decide (curr = some se)) =
      { recorderOf pick curr order with
        calls := (recorderOf pick curr (order ++ [se])).calls
        i := (recorderOf pick curr (order ++ [se])).i } := by
  simp only [Recorder.statsAdd, recorderOf, List.map_append, addsFrom_append, List.length_map,
    Nat.zero_add, List.length_append, UInt32.ofNat_add, List.map_cons, List.map_nil, addsFrom]
  rfl

theorem addQueued_recorderOf (order : List Entity) (se : Entity) :
    addQueued pick curr (recorderOf pick curr order) se = recorderOf pick curr (order ++ [se]) := by
  rw [addQueued, statsAdd_recorderOf]
  simp only [recorderOf, List.any_append, List.any_cons, List.any_nil, Bool.or_false]

/-- In the tree the successor is the next entity of the list. -/
theorem rbNext_split {before after : List Entity} {se : Entity}
    (nodup : (before ++ se :: after).Nodup) : rbNext (before ++ se :: after) se = after.head? := by
  have outside : forall other, other ∈ before -> other ≠ se := by
    rintro other member rfl
    exact (List.disjoint_of_nodup_append nodup) member List.mem_cons_self
  rw [rbNext, List.dropWhile_append_of_pos]
  · simp
  · simpa using outside

theorem rbNext_outside {se : Entity} (outside : se ∉ tree) : rbNext tree se = none := by
  have passed : forall other, other ∈ tree -> decide (other ≠ se) = true := by
    intro other member
    exact decide_eq_true fun same => outside (same ▸ member)
  have all : (tree ++ []).dropWhile (· ≠ se) = [] := List.dropWhile_append_of_pos passed
  rw [List.append_nil] at all
  rw [rbNext, all]
  rfl

/-- The loop adds the entities from the given one on. -/
theorem walk_returns (nodup : tree.Nodup) {before after : List Entity} {se : Entity}
    (split : tree = before ++ se :: after) (order : List Entity) :
    Returns (queuedPass tree pick curr) (recorderOf pick curr order, se)
      (recorderOf pick curr (order ++ se :: after)) := by
  have next : rbNext tree se = after.head? := by
    rw [split]
    exact rbNext_split (split ▸ nodup)
  induction after generalizing before se order with
  | nil =>
      refine .done ?_
      rw [queuedPass, next, addQueued_recorderOf]
      rfl
  | cons right after inductionHypothesis =>
      have split' : tree = (before ++ [se]) ++ right :: after := by simpa using split
      have next' : rbNext tree right = after.head? := by
        rw [split']
        exact rbNext_split (split' ▸ nodup)
      have turn : queuedPass tree pick curr (recorderOf pick curr order, se) =
          .again (recorderOf pick curr (order ++ [se]), right) := by
        rw [queuedPass, next, addQueued_recorderOf]
        rfl
      refine .again turn ?_
      simpa using inductionHypothesis split' (order ++ [se]) next'

theorem walks_iff (nodup : tree.Nodup) {queued : Recorder Entity} :
    Walks tree pick curr (recorderOf pick curr []) (firstOf tree curr) queued <->
      queued = recorderOf pick curr (walked tree curr) := by
  cases tree with
  | nil =>
      cases curr with
      | none => exact Iff.rfl
      | some se =>
          refine returns_done_iff ?_
          rw [queuedPass, rbNext_outside List.not_mem_nil, addQueued_recorderOf]
          rfl
  | cons left after =>
      have returns := @walk_returns _ _ _ pick curr nodup [] _ _ (List.nil_append _).symm []
      constructor
      · exact fun other => other.unique returns
      · rintro rfl
        exact returns

/-- An entity that is not among the others. -/
def unseen (order : List Entity) (option : Option Entity) : List Entity :=
  option.toList.filter (· ∉ order)

theorem unseen_of_mem {order : List Entity} {se : Entity} (member : se ∈ order) :
    unseen order (some se) = [] := by
  simp [unseen, member]

theorem unseen_of_not_mem {order : List Entity} {se : Entity} (missing : se ∉ order) :
    unseen order (some se) = [se] := by
  simp [unseen, missing]

theorem eq_some_of_mem_unseen {order : List Entity} {option : Option Entity} {se : Entity}
    (member : se ∈ unseen order option) : option = some se :=
  Option.mem_toList.mp (List.mem_filter.mp member).1

/-- The picked entity, unless the loop has come across it, and then the current one. -/
def recordedOrder (tree : List Entity) (pick curr : Option Entity) : List Entity :=
  let queued := walked tree curr
  let picked := queued ++ unseen queued pick
  picked ++ unseen picked curr

theorem any_eq_some (order : List Entity) (se : Entity) :
    (order.any fun other => decide (some se = some other)) = decide (se ∈ order) := by
  rw [Bool.eq_iff_iff]
  simp

theorem addPick_recorderOf (order : List Entity) :
    addPick pick curr (recorderOf pick curr order) =
      { recorderOf pick curr (order ++ unseen order pick) with
        hasPick := (recorderOf pick curr order).hasPick } := by
  cases pick with
  | none =>
      rw [unseen, Option.toList_none, List.filter_nil, List.append_nil]
      rfl
  | some se =>
      have hasPick : (recorderOf (some se) curr order).hasPick = decide (se ∈ order) :=
        any_eq_some order se
      by_cases member : se ∈ order
      · rw [addPick, hasPick, if_pos (decide_eq_true member), unseen_of_mem member,
          List.append_nil, ← hasPick]
      · have added : addQueued (some se) curr (recorderOf (some se) curr order) se =
            recorderOf (some se) curr (order ++ [se]) := addQueued_recorderOf order se
        rw [addPick, hasPick, if_neg (by simpa using member), unseen_of_not_mem member, ← added,
          addQueued, decide_eq_true rfl]
        simp only [Recorder.statsAdd, hasPick]

theorem addCurr_recorderOf (order : List Entity) (hasPick : Bool) :
    addCurr pick curr { recorderOf pick curr order with hasPick := hasPick } =
      { recorderOf pick curr (order ++ unseen order curr) with
        hasPick := hasPick
        hasCurr := (recorderOf pick curr order).hasCurr } := by
  cases curr with
  | none =>
      rw [unseen, Option.toList_none, List.filter_nil, List.append_nil]
      rfl
  | some se =>
      have hasCurr : (recorderOf pick (some se) order).hasCurr = decide (se ∈ order) :=
        any_eq_some order se
      by_cases member : se ∈ order
      · rw [addCurr]
        simp only [hasCurr, decide_eq_true member, if_true, unseen_of_mem member, List.append_nil]
      · have added : (recorderOf pick (some se) order).statsAdd se (decide (pick = some se)) true =
            { recorderOf pick (some se) order with
              calls := (recorderOf pick (some se) (order ++ [se])).calls
              i := (recorderOf pick (some se) (order ++ [se])).i } := by
          rw [← statsAdd_recorderOf]
          simp only [decide_true]
        rw [unseen_of_not_mem member, addCurr]
        simp only [hasCurr, decide_eq_false member, Bool.false_eq_true, if_false]
        simp only [Recorder.statsAdd, Recorder.mk.injEq] at added ⊢
        exact ⟨added.1, added.2.1, trivial, trivial⟩

theorem filter_eq_toList {order : List Entity} (nodup : order.Nodup) {option : Option Entity}
    (inside : forall se, option = some se -> se ∈ order) :
    (order.filter fun se => decide (option = some se)) = option.toList := by
  cases option with
  | none => simp
  | some se =>
      have single : order.filter (· = se) = [se] := by
        rw [List.filter_eq, List.count_eq_one_of_mem nodup (inside se rfl), List.replicate_one]
      rw [Option.toList_some, ← single]
      simp only [Option.some.injEq, eq_comm]

theorem mem_unseen_append {order : List Entity} {option : Option Entity} {se : Entity} :
    se ∈ order ++ unseen order option <-> se ∈ order ∨ option = some se := by
  rw [List.mem_append, unseen, List.mem_filter, Option.mem_toList]
  by_cases member : se ∈ order <;> simp [member]

theorem unseen_append_nodup {order : List Entity} (nodup : order.Nodup) (option : Option Entity) :
    (order ++ unseen order option).Nodup := by
  refine List.nodup_append.mpr ⟨nodup, ?_, ?_⟩
  · refine List.Nodup.filter _ ?_
    cases option with
    | none => exact List.nodup_nil
    | some se => exact List.nodup_singleton se
  · rintro se member other new rfl
    exact of_decide_eq_true (List.mem_filter.mp new).2 member

theorem mem_recordedOrder (se : Entity) :
    se ∈ recordedOrder tree pick curr <-> se ∈ tree ∨ curr = some se ∨ pick = some se := by
  rw [recordedOrder, mem_unseen_append, mem_unseen_append]
  constructor
  · rintro ((member | picked) | current)
    · exact (mem_walked member).imp_right Or.inl
    · exact Or.inr (Or.inr picked)
    · exact Or.inr (Or.inl current)
  · rintro (member | current | picked)
    · exact Or.inl (Or.inl (mem_walked_of_mem member curr))
    · exact Or.inr current
    · exact Or.inl (Or.inr picked)

theorem recordedOrder_eq_nil (empty : walked tree curr = []) : recordedOrder tree none curr = [] := by
  unfold walked at empty
  split at empty
  · rename_i noTree
    cases curr with
    | none => rw [noTree]; rfl
    | some se => cases empty
  · rename_i someTree
    exact absurd empty someTree

theorem recordedOrder_nodup (nodup : tree.Nodup) : (recordedOrder tree pick curr).Nodup :=
  unseen_append_nodup (unseen_append_nodup (walked_nodup nodup curr) pick) curr

theorem recordedOrder_complete (nodup : tree.Nodup) :
    Complete tree pick curr ((recordedOrder tree pick curr).map (entryOf pick curr)) := by
  have entities : ((recordedOrder tree pick curr).map (entryOf pick curr)).map Entry.se =
      recordedOrder tree pick curr := by
    rw [List.map_map]
    exact List.map_id _
  have once : (recordedOrder tree pick curr).Nodup := recordedOrder_nodup nodup
  have marked (option : Option Entity) (mark : Entry Entity -> Bool)
      (marks : forall se, mark (entryOf pick curr se) = decide (option = some se))
      (inside : forall se, option = some se -> se ∈ recordedOrder tree pick curr) :
      ((((recordedOrder tree pick curr).map (entryOf pick curr)).filter mark).map Entry.se) =
        option.toList := by
    have same : mark ∘ entryOf pick curr = fun se => decide (option = some se) := funext marks
    rw [List.filter_map, List.map_map, same, filter_eq_toList once inside]
    exact List.map_id _
  refine ⟨fun se => entities.symm ▸ mem_recordedOrder se, entities.symm ▸ once, ?_, ?_⟩
  · exact marked pick Entry.isPick (fun se => rfl) fun se same =>
      (mem_recordedOrder se).mpr (Or.inr (Or.inr same))
  · exact marked curr Entry.isCurr (fun se => rfl) fun se same =>
      (mem_recordedOrder se).mpr (Or.inr (Or.inl same))

theorem adds_iff (nodup : tree.Nodup) {calls : List (StatsCall Entity)} :
    AddsAutolockStats tree pick curr (firstOf tree curr) calls <->
      calls = sliceCalls ((recordedOrder tree pick curr).map (entryOf pick curr)) := by
  rw [AddsAutolockStats]
  by_cases nothing : firstOf tree curr = none ∧ pick = none
  · rcases nothing with ⟨empty, rfl⟩
    cases tree with
    | nil =>
        cases empty
        rw [if_pos ⟨rfl, rfl⟩]
        rfl
    | cons left after => cases empty
  have start : (⟨[.start], 0, false, false⟩ : Recorder Entity) = recorderOf pick curr [] := rfl
  have nonempty : recordedOrder tree pick curr ≠ [] := by
    intro empty
    have nobody (se : Entity) : ¬(se ∈ tree ∨ curr = some se ∨ pick = some se) := by
      rw [← mem_recordedOrder, empty]
      exact List.not_mem_nil
    refine nothing ⟨?_, Option.eq_none_iff_forall_ne_some.mpr fun se same =>
      nobody se (Or.inr (Or.inr same))⟩
    cases tree with
    | nil =>
        exact Option.eq_none_iff_forall_ne_some.mpr fun se same => nobody se (Or.inr (Or.inl same))
    | cons left after => exact absurd (Or.inl List.mem_cons_self) (nobody left)
  rw [if_neg nothing, start]
  simp only [walks_iff nodup, exists_eq_left, addPick_recorderOf, addCurr_recorderOf]
  rw [sliceCalls, if_neg (by simpa using nonempty), List.length_map]
  rfl

/-- Whatever the tree, the picked and the current entity, a slice is complete; the
count that ends it is the number of its entries. -/
theorem slice_complete (nodup : tree.Nodup) :
    exists entries, Complete tree pick curr entries ∧
      forall calls, AddsAutolockStats tree pick curr (firstOf tree curr) calls <->
        calls = sliceCalls entries :=
  ⟨_, recordedOrder_complete nodup, fun _ => adds_iff nodup⟩

end recorded

/-- The current entity is outside the tree, and the second of the tree is picked. -/
theorem slice_complete_three :
    exists entries, Complete [1, 2] (some 2) (some 3) entries ∧
      forall calls, AddsAutolockStats [1, 2] (some 2) (some 3) (firstOf [1, 2] (some 3)) calls <->
        calls = sliceCalls entries :=
  slice_complete (by decide)

/-! ## What the calls write -/

section writes

variable {Entity : Type} (cpu : Nat) (ts : Timespec) (taskOf : Entity -> StatsTask)

def perform (s : SchedStats) : StatsCall Entity -> SchedStats
  | .start => s.autoLockStatsStart cpu ts
  | .add se idx isPick isCurr => s.autoLockStatsAdd cpu (taskOf se) idx isPick isCurr
  | .finish endIdx => s.autoLockStatsEnd cpu endIdx

def Entry.task (entry : Entry Entity) : TaskEntry :=
  TaskEntry.ofTask (taskOf entry.se) entry.isPick entry.isCurr

theorem perform_addsFrom (s : SchedStats) (k : Nat) (entries : List (Entry Entity)) :
    (addsFrom k entries).foldl (perform cpu ts taskOf) s =
      SchedStats.addEntries cpu s (UInt32.ofNat k) (entries.map (Entry.task taskOf)) := by
  induction entries generalizing s k with
  | nil => rfl
  | cons entry entries inductionHypothesis =>
      rw [addsFrom, List.foldl_cons, inductionHypothesis, List.map_cons, SchedStats.addEntries,
        UInt32.ofNat_add]
      rfl

theorem perform_sliceCalls (s : SchedStats) (entries : List (Entry Entity)) :
    (sliceCalls entries).foldl (perform cpu ts taskOf) s =
      s.recordSlice cpu ts (entries.map (Entry.task taskOf)) := by
  by_cases empty : entries = []
  · subst empty
    rfl
  · have nonempty : entries.map (Entry.task taskOf) ≠ [] := by simpa using empty
    have started : (StatsCall.start :: addsFrom 0 entries).foldl (perform cpu ts taskOf) s =
        (addsFrom 0 entries).foldl (perform cpu ts taskOf) (s.autoLockStatsStart cpu ts) := rfl
    rw [sliceCalls, if_neg empty, List.foldl_append, started, perform_addsFrom,
      SchedStats.recordSlice, if_neg nonempty, List.length_map]
    rfl

variable {cpu ts taskOf}
variable [DecidableEq Entity] {tree : List Entity} {pick curr : Option Entity}

theorem same_taskOf (distinct : forall se other,
      (taskOf se).entity = (taskOf other).entity -> se = other)
    (se : Entity) (option : Option Entity) :
    SchedStats.same (taskOf se) (option.map taskOf) = decide (option = some se) := by
  cases option with
  | none => rfl
  | some other =>
      rw [Bool.eq_iff_iff]
      simp only [SchedStats.same, Option.map_some, Option.any_some, beq_iff_eq, decide_eq_true_iff,
        Option.some.injEq]
      exact ⟨distinct other se, fun same => same ▸ rfl⟩

/-- The function finds out with its flags who has not been added. -/
theorem unseen_taskOf (order : List Entity) (option : Option Entity) :
    (if order.any fun se => decide (option = some se) then [] else (option.map taskOf).toList) =
      (unseen order option).map taskOf := by
  cases option with
  | none => simp [unseen]
  | some se =>
      rw [any_eq_some]
      by_cases member : se ∈ order
      · rw [if_pos (decide_eq_true member), unseen_of_mem member]
        rfl
      · rw [if_neg (by simpa using member), unseen_of_not_mem member]
        rfl

/-- The entries are those of `addAutolockStats`. -/
theorem sliceEntries_eq (distinct : forall se other,
      (taskOf se).entity = (taskOf other).entity -> se = other) :
    SchedStats.sliceEntries ((walked tree curr).map taskOf) (pick.map taskOf) (curr.map taskOf) =
      ((recordedOrder tree pick curr).map (entryOf pick curr)).map (Entry.task taskOf) := by
  have marked (x : Entity) : Entry.task taskOf (entryOf pick curr x) =
      TaskEntry.ofTask (taskOf x) (decide (pick = some x)) (decide (curr = some x)) := rfl
  by_cases nothing : (walked tree curr).map taskOf = [] ∧ pick.map taskOf = none
  · rw [List.map_eq_nil_iff, Option.map_eq_none_iff] at nothing
    rcases nothing with ⟨empty, rfl⟩
    rw [SchedStats.sliceEntries, if_pos ⟨by rw [empty, List.map_nil], rfl⟩,
      recordedOrder_eq_nil empty]
    rfl
  rw [SchedStats.sliceEntries, if_neg nothing, recordedOrder]
  generalize walked tree curr = queued
  have picked : (if queued.any fun se => decide (pick = some se) then []
      else (pick.map taskOf).toList) = (unseen queued pick).map taskOf := unseen_taskOf queued pick
  have current : (if (queued ++ unseen queued pick).any fun se => decide (curr = some se) then []
      else (curr.map taskOf).toList) = (unseen (queued ++ unseen queued pick) curr).map taskOf :=
    unseen_taskOf (queued ++ unseen queued pick) curr
  have pickedMarks : (unseen queued pick).map (fun x =>
        TaskEntry.ofTask (taskOf x) true (decide (curr = some x))) =
      (unseen queued pick).map fun x => Entry.task taskOf (entryOf pick curr x) := by
    refine List.map_congr_left fun se member => ?_
    rw [marked, decide_eq_true (eq_some_of_mem_unseen member)]
  have currentMarks (more : List Entity) : (unseen more curr).map (fun x =>
        TaskEntry.ofTask (taskOf x) (decide (pick = some x)) true) =
      (unseen more curr).map fun x => Entry.task taskOf (entryOf pick curr x) := by
    refine List.map_congr_left fun se member => ?_
    rw [marked, decide_eq_true (eq_some_of_mem_unseen member)]
  have rest (g : StatsTask -> TaskEntry) :
      (if (queued ++ unseen queued pick).any fun se => decide (curr = some se) then []
        else (curr.map taskOf).toList.map g) =
        (unseen (queued ++ unseen queued pick) curr).map fun x => g (taskOf x) := by
    have order : (unseen (queued ++ unseen queued pick) curr).map (fun x => g (taskOf x)) =
        ((unseen (queued ++ unseen queued pick) curr).map taskOf).map g := (List.map_map).symm
    rw [order, ← current]
    split <;> rfl
  simp only [List.any_map, Function.comp_def, same_taskOf distinct]
  rw [picked, ← List.map_append, List.any_map]
  simp only [Function.comp_def, same_taskOf distinct, rest, List.map_map, List.map_append,
    pickedMarks, currentMarks, marked]

/-- The calls write what `addAutolockStats` writes. -/
theorem perform_calls (distinct : forall se other,
      (taskOf se).entity = (taskOf other).entity -> se = other)
    (nodup : tree.Nodup) (s : SchedStats) {calls : List (StatsCall Entity)}
    (adds : AddsAutolockStats tree pick curr (firstOf tree curr) calls) :
    calls.foldl (perform cpu ts taskOf) s =
      s.addAutolockStats cpu ts ((walked tree curr).map taskOf) (pick.map taskOf)
        (curr.map taskOf) := by
  rw [(adds_iff nodup).mp adds, perform_sliceCalls, SchedStats.addAutolockStats_eq,
    sliceEntries_eq distinct]

end writes

end SliceRecorder

end Stats
end Autolock
