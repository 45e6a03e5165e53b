import Autolock.Kernel.Fair

namespace Autolock
namespace Kernel

/-!
# What the patched pick promises

Version 6 always returns a queued entity, and returns what version 0 returns
unless the leftmost candidate is held and not the skip buddy.  It does not
always avoid held entities: the condition under which it does is worked out
from the order in which the passes of the function override one another.
-/

namespace CfsRq

variable {Entity : Type} {queries : SchedQueries Entity} {rq : CfsRq Entity}

/-! ## The leftmost candidate -/

theorem left_queued {se : Entity} (leftmost : rq.left queries = some se) : rq.Queued se := by
  unfold left at leftmost
  split at leftmost
  · exact Or.inr leftmost
  · next first isFirst =>
      split at leftmost
      · exact Or.inr leftmost
      · cases leftmost
        exact Or.inl (List.mem_of_head? isFirst)

theorem left_isSome (queries : SchedQueries Entity) {e : Entity} (queued : rq.Queued e) :
    (rq.left queries).isSome = true := by
  unfold left
  split
  · next empty =>
      rcases queued with inTree | isCurr
      · rw [pickFirst, List.head?_eq_none_iff] at empty
        simp [empty] at inTree
      · rw [isCurr]
        rfl
  · split
    · next ahead =>
        cases current : rq.curr with
        | none => simp [currBefore, current] at ahead
        | some curr => rfl
    · rfl

/-- A leftmost candidate that is not `curr` is the first of the tree. -/
theorem left_tree {se : Entity} (leftmost : rq.left queries = some se)
    (notCurr : rq.curr ≠ some se) : exists after, rq.tasksTimeline = se :: after := by
  unfold left at leftmost
  split at leftmost
  · exact absurd leftmost notCurr
  · next first isFirst =>
      split at leftmost
      · exact absurd leftmost notCurr
      · cases leftmost
        exact List.head?_eq_some_iff.mp isFirst

/-! ## The tree walk -/

variable [DecidableEq Entity]

/-- The successor of an entity is the head of what stands to its right. -/
theorem pickNext_eq_head {se : Entity} {before after : List Entity}
    (tree : rq.tasksTimeline = before ++ se :: after) : rq.pickNext se = after.head? := by
  have distinct := rq.nodup
  rw [tree, List.nodup_append] at distinct
  have skipped : forall e, e ∈ before -> decide (e ≠ se) = true := by
    intro e member
    exact decide_eq_true (distinct.2.2 e member se List.mem_cons_self)
  rw [pickNext, tree, List.dropWhile_append_of_pos skipped,
    List.dropWhile_cons_of_neg (by simp), List.tail_cons]

/-- With enough fuel the loop finds the first entity that is not held. -/
theorem firstNotHeld_eq_find {fuel : Nat} {se : Entity} {before after : List Entity}
    (tree : rq.tasksTimeline = before ++ se :: after) (enough : after.length < fuel) :
    rq.firstNotHeld queries fuel se =
      (se :: after).find? fun e => !queries.autoLockDontSched e := by
  induction fuel generalizing se before after with
  | zero => exact absurd enough (Nat.not_lt_zero _)
  | succ fuel inductionHypothesis =>
      rw [firstNotHeld, List.find?_cons]
      cases held : queries.autoLockDontSched se with
      | false => rfl
      | true =>
          simp only [Bool.not_true, Bool.true_eq_false, if_false, pickNext_eq_head tree]
          cases after with
          | nil => rfl
          | cons second after =>
              have shifted : rq.tasksTimeline = (before ++ [se]) ++ second :: after := by
                rw [tree, List.append_assoc, List.singleton_append]
              exact inductionHypothesis shifted (Nat.lt_of_succ_lt_succ enough)

/-- The loop of version 6 in terms of the tree: it looks at everything to the
right of the first entity. -/
theorem earlyReturn_eq {se : Entity} (leftmost : rq.left queries = some se) (dontSchedSe : Bool) :
    rq.earlyReturn queries se dontSchedSe =
      if rq.curr = some se ∨ dontSchedSe = false ∨
          rq.tasksTimeline.tail.head?.any (rq.currBefore queries) then none
      else rq.tasksTimeline.tail.find? fun e => !queries.autoLockDontSched e := by
  by_cases isCurr : rq.curr = some se
  · simp [earlyReturn, isCurr]
  · rcases left_tree leftmost isCurr with ⟨after, tree⟩
    have tree' : rq.tasksTimeline = [] ++ se :: after := tree
    simp only [earlyReturn, isCurr, if_false, pickNext_eq_head tree', false_or]
    cases after with
    | nil => simp [tree]
    | cons second after =>
        have walk : rq.firstNotHeld queries rq.tasksTimeline.length second =
            (second :: after).find? fun e => !queries.autoLockDontSched e :=
          firstNotHeld_eq_find (show rq.tasksTimeline = [se] ++ second :: after from tree)
            (by simp only [tree, List.length_cons]; omega)
        cases ahead : rq.currBefore queries second with
        | true => simp [tree, ahead]
        | false =>
            cases dontSchedSe with
            | false => simp [tree]
            | true => simpa [tree, ahead] using walk

/-! ## The passes, in the order in which they override one another -/

section passes

variable (queries) (rq)

/-- The loop of version 6 is entered and finds an entity that is not held:
the first of the tree is the leftmost candidate, it is held and not the skip
buddy, and `curr` is not before the second. -/
def WalkFinds : Prop :=
  exists se, rq.left queries = some se ∧ rq.curr ≠ some se ∧ rq.skip ≠ some se ∧
    queries.autoLockDontSched se = true ∧
    rq.tasksTimeline.tail.head?.any (rq.currBefore queries) = false ∧
    exists e, e ∈ rq.tasksTimeline.tail ∧ queries.autoLockDontSched e = false

omit [DecidableEq Entity] in
/-- The next buddy, or else the last buddy, may replace the leftmost candidate. -/
def BuddyWins (b : Entity) : Prop :=
  mayReplace queries (rq.left queries) b = true ∧
    (rq.next = some b ∨
      rq.last = some b ∧ rq.next.any (mayReplace queries (rq.left queries)) = false)

/-- The leftmost candidate is the skip buddy or held, and the second choice may replace it. -/
def SecondWins (s : Entity) : Prop :=
  exists se, rq.left queries = some se ∧
    (rq.skip = some se ∨ queries.autoLockDontSched se = true) ∧
    rq.secondChoice queries se = some s ∧ mayReplace queries (rq.left queries) s = true

variable {queries rq}

omit [DecidableEq Entity] in
theorem preferBuddies_of_buddyWins {b : Entity} (wins : rq.BuddyWins queries b)
    (se : Option Entity) : rq.preferBuddies queries (rq.left queries) se = some b := by
  rcases wins with ⟨may, isNext | ⟨isLast, nextMayNot⟩⟩
  · simp [preferBuddies, isNext, may]
  · simp [preferBuddies, isLast, may, nextMayNot]

omit [DecidableEq Entity] in
theorem preferBuddies_of_none (none_wins : forall b, ¬ rq.BuddyWins queries b)
    (se : Option Entity) : rq.preferBuddies queries (rq.left queries) se = se := by
  have nextMayNot : rq.next.any (mayReplace queries (rq.left queries)) = false := by
    cases isNext : rq.next with
    | none => rfl
    | some b => exact Bool.eq_false_iff.mpr fun may => none_wins b ⟨may, Or.inl isNext⟩
  have lastMayNot : rq.last.any (mayReplace queries (rq.left queries)) = false := by
    cases isLast : rq.last with
    | none => rfl
    | some b =>
        exact Bool.eq_false_iff.mpr fun may => none_wins b ⟨may, Or.inr ⟨isLast, nextMayNot⟩⟩
  simp [preferBuddies, nextMayNot, lastMayNot]

/-- A walk that finds an entity decides the pick. -/
theorem pickNextEntityV6_of_walkFinds (finds : rq.WalkFinds queries) :
    exists e, rq.pickNextEntityV6 queries = some e ∧ e ∈ rq.tasksTimeline ∧
      queries.autoLockDontSched e = false := by
  rcases finds with ⟨se, leftmost, notCurr, notSkip, held, notBefore, e, member, free⟩
  have found : (rq.tasksTimeline.tail.find? fun e => !queries.autoLockDontSched e).isSome := by
    rw [List.find?_isSome]
    exact ⟨e, member, by simp [free]⟩
  rcases Option.isSome_iff_exists.mp found with ⟨e', found⟩
  have early : rq.earlyReturn queries se true = some e' := by
    rw [earlyReturn_eq leftmost, notBefore, if_neg (by simp [notCurr]), found]
  refine ⟨e', ?_, List.mem_of_mem_tail (List.mem_of_find?_eq_some found), ?_⟩
  · simp [pickNextEntityV6, leftmost, notSkip, held, early]
  · simpa using List.find?_some found

/-- Otherwise the pick is what the later passes make of the leftmost candidate. -/
theorem pickNextEntityV6_of_not_walkFinds (fails : ¬ rq.WalkFinds queries) {se : Entity}
    (leftmost : rq.left queries = some se) :
    rq.pickNextEntityV6 queries =
      rq.preferBuddies queries (rq.left queries)
        (if rq.skip = some se ∨ queries.autoLockDontSched se = true then
          preferSecond queries (rq.left queries) (rq.secondChoice queries se) (rq.left queries)
        else rq.left queries) := by
  by_cases isSkip : rq.skip = some se
  · have early : rq.earlyReturn queries se false = none := by
      simp [earlyReturn_eq leftmost]
    simp [pickNextEntityV6, leftmost, isSkip, early]
  · cases held : queries.autoLockDontSched se with
    | false => simp [pickNextEntityV6, leftmost, isSkip, held]
    | true =>
        have early : rq.earlyReturn queries se true = none := by
          rw [earlyReturn_eq leftmost]
          split
          · rfl
          · next enters =>
              simp only [not_or, Bool.not_eq_true] at enters
              rw [List.find?_eq_none]
              intro e member
              by_contra free
              exact fails ⟨se, leftmost, enters.1, isSkip, held, enters.2.2, e, member,
                by simpa using free⟩
        simp [pickNextEntityV6, leftmost, isSkip, held, early]

theorem pickNextEntityV6_of_buddyWins (fails : ¬ rq.WalkFinds queries) {b : Entity}
    (wins : rq.BuddyWins queries b) : rq.pickNextEntityV6 queries = some b := by
  obtain ⟨se, leftmost⟩ : exists se, rq.left queries = some se := by
    cases leftmost : rq.left queries with
    | none => exact absurd wins.1 (by simp [leftmost, mayReplace])
    | some se => exact ⟨se, rfl⟩
  rw [pickNextEntityV6_of_not_walkFinds fails leftmost]
  exact preferBuddies_of_buddyWins wins _

theorem pickNextEntityV6_of_secondWins (fails : ¬ rq.WalkFinds queries)
    (noBuddy : forall b, ¬ rq.BuddyWins queries b) {s : Entity} (wins : rq.SecondWins queries s) :
    rq.pickNextEntityV6 queries = some s := by
  rcases wins with ⟨se, leftmost, passedOver, isSecond, may⟩
  rw [pickNextEntityV6_of_not_walkFinds fails leftmost, preferBuddies_of_none noBuddy,
    if_pos passedOver, preferSecond, isSecond]
  simp [may]

theorem pickNextEntityV6_of_left (fails : ¬ rq.WalkFinds queries)
    (noBuddy : forall b, ¬ rq.BuddyWins queries b) (noSecond : forall s, ¬ rq.SecondWins queries s)
    {se : Entity} (leftmost : rq.left queries = some se) :
    rq.pickNextEntityV6 queries = some se := by
  rw [pickNextEntityV6_of_not_walkFinds fails leftmost, preferBuddies_of_none noBuddy]
  split
  · next passedOver =>
      have mayNot : (rq.secondChoice queries se).any (mayReplace queries (rq.left queries)) =
          false := by
        cases isSecond : rq.secondChoice queries se with
        | none => rfl
        | some s =>
            exact Bool.eq_false_iff.mpr fun may =>
              noSecond s ⟨se, leftmost, passedOver, isSecond, may⟩
      rw [preferSecond, mayNot, leftmost]
      rfl
  · exact leftmost

end passes

/-! ## Every pick is a queued entity -/

theorem secondChoice_queued {se s : Entity} (second : rq.secondChoice queries se = some s) :
    rq.Queued s := by
  unfold secondChoice at second
  split at second
  · exact Or.inl (List.mem_of_head? second)
  · split at second
    · exact Or.inr second
    · next s' successor =>
        split at second
        · exact Or.inr second
        · cases second
          exact Or.inl (List.dropWhile_sublist _ |>.subset
            (List.mem_of_mem_tail (List.mem_of_head? successor)))

/-- Some entity is picked whenever one is queued, and it is a queued one. -/
theorem pickNextEntityV6_queued {e : Entity} (queued : rq.Queued e) :
    exists picked, rq.pickNextEntityV6 queries = some picked ∧ rq.Queued picked := by
  rcases Option.isSome_iff_exists.mp (left_isSome queries queued) with ⟨se, leftmost⟩
  by_cases finds : rq.WalkFinds queries
  · rcases pickNextEntityV6_of_walkFinds finds with ⟨picked, isPicked, inTree, _⟩
    exact ⟨picked, isPicked, Or.inl inTree⟩
  · by_cases buddy : exists b, rq.BuddyWins queries b
    · rcases buddy with ⟨b, wins⟩
      refine ⟨b, pickNextEntityV6_of_buddyWins finds wins, ?_⟩
      rcases wins.2 with isNext | ⟨isLast, _⟩
      · exact rq.buddies_queued b (Or.inr (Or.inl isNext))
      · exact rq.buddies_queued b (Or.inr (Or.inr isLast))
    · rw [not_exists] at buddy
      by_cases second : exists s, rq.SecondWins queries s
      · rcases second with ⟨s, wins⟩
        rcases id wins with ⟨_, _, _, isSecond, _⟩
        exact ⟨s, pickNextEntityV6_of_secondWins finds buddy wins, secondChoice_queued isSecond⟩
      · rw [not_exists] at second
        exact ⟨se, pickNextEntityV6_of_left finds buddy second leftmost, left_queued leftmost⟩

/-- The patched pick returns a queued entity whenever there is one, and the
same entity as the unpatched pick whenever the leftmost candidate is not held
or is the skip buddy. -/
theorem pickNextEntityV6_conservative (queries : SchedQueries Entity) (rq : CfsRq Entity) :
    ((exists e, rq.Queued e) ->
      exists picked, rq.pickNextEntityV6 queries = some picked ∧ rq.Queued picked) ∧
      forall se, rq.left queries = some se ->
        queries.autoLockDontSched se = false ∨ rq.skip = some se ->
        rq.pickNextEntityV6 queries = rq.pickNextEntityV0 queries := by
  refine ⟨fun ⟨e, queued⟩ => pickNextEntityV6_queued queued, ?_⟩
  intro se leftmost passes
  have fails : ¬ rq.WalkFinds queries := by
    rintro ⟨se', leftmost', _, notSkip, held, _⟩
    cases leftmost.symm.trans leftmost'
    rcases passes with free | isSkip
    · exact absurd held (by simp [free])
    · exact notSkip isSkip
  rw [pickNextEntityV6_of_not_walkFinds fails leftmost]
  by_cases isSkip : rq.skip = some se
  · simp [pickNextEntityV0, leftmost, isSkip]
  · have free := passes.resolve_right isSkip
    simp [pickNextEntityV0, leftmost, isSkip, free]

/-- The tree holds one entity that is held, `curr` is not held. -/
def heldFirst : CfsRq Nat where
  tasksTimeline := [0]
  curr := some 1
  skip := none
  next := none
  last := none
  nodup := by decide
  curr_outside := by simp
  buddies_queued := by simp

/-- Nobody may preempt anybody, and task 0 is held. -/
def heldZero : SchedQueries Nat where
  entityBefore := fun _ _ => false
  wakeupPreemptEntity := fun _ _ => 1
  autoLockDontSched := fun e => e == 0

/-- The same queue with the leftmost candidate as the skip buddy. -/
def skipFirst : CfsRq Nat :=
  { heldFirst with
    skip := some 0
    buddies_queued := by simp [heldFirst] }

theorem pickNextEntityV6_conservative_skipFirst :
    (exists picked, heldFirst.pickNextEntityV6 heldZero = some picked ∧
        heldFirst.Queued picked) ∧
      skipFirst.pickNextEntityV6 heldZero = skipFirst.pickNextEntityV0 heldZero :=
  ⟨(pickNextEntityV6_conservative heldZero heldFirst).1 ⟨0, .inl (List.mem_singleton_self 0)⟩,
    (pickNextEntityV6_conservative heldZero skipFirst).2 0 (by decide) (.inr rfl)⟩

/-! ## When the pick avoids held entities -/

/-- Nobody can run, or the walk finds somebody, or the last pass that applies
chooses an entity that is not held: a buddy, else the second choice, else the
leftmost candidate. -/
def SparesHeld (queries : SchedQueries Entity) (rq : CfsRq Entity) : Prop :=
  (forall e, rq.Queued e -> queries.autoLockDontSched e = true) ∨ rq.WalkFinds queries ∨
    (forall b, rq.BuddyWins queries b -> queries.autoLockDontSched b = false) ∧
      ((forall b, ¬ rq.BuddyWins queries b) ->
        (forall s, rq.SecondWins queries s -> queries.autoLockDontSched s = false) ∧
          ((forall s, ¬ rq.SecondWins queries s) ->
            forall se, rq.left queries = some se -> queries.autoLockDontSched se = false))

/-- The pick avoids held entities, as long as somebody is not held, exactly
when the passes do. -/
theorem pickNextEntityV6_avoids_held_iff (queries : SchedQueries Entity) (rq : CfsRq Entity) :
    ((exists e, rq.Queued e ∧ queries.autoLockDontSched e = false) ->
      exists picked, rq.pickNextEntityV6 queries = some picked ∧
        queries.autoLockDontSched picked = false) <-> rq.SparesHeld queries := by
  -- What is picked is determined, so the pick is held or not as that entity is.
  have determined : forall {e}, rq.pickNextEntityV6 queries = some e ->
      ((exists picked, rq.pickNextEntityV6 queries = some picked ∧
        queries.autoLockDontSched picked = false) <-> queries.autoLockDontSched e = false) := by
    intro e picks
    rw [picks]
    exact ⟨fun ⟨_, same, free⟩ => Option.some.inj same ▸ free, fun free => ⟨e, rfl, free⟩⟩
  constructor
  · intro avoids
    by_cases allHeld : forall e, rq.Queued e -> queries.autoLockDontSched e = true
    · exact Or.inl allHeld
    · refine Or.inr ?_
      simp only [not_forall, Bool.not_eq_true] at allHeld
      rcases allHeld with ⟨e, queued, free⟩
      have picked := avoids ⟨e, queued, free⟩
      by_cases finds : rq.WalkFinds queries
      · exact Or.inl finds
      · refine Or.inr ⟨fun b wins => ?_, fun noBuddy =>
          ⟨fun s wins => ?_, fun noSecond se leftmost => ?_⟩⟩
        · exact (determined (pickNextEntityV6_of_buddyWins finds wins)).mp picked
        · exact (determined (pickNextEntityV6_of_secondWins finds noBuddy wins)).mp picked
        · exact (determined (pickNextEntityV6_of_left finds noBuddy noSecond leftmost)).mp picked
  · rintro spares ⟨e, queued, free⟩
    by_cases finds : rq.WalkFinds queries
    · rcases pickNextEntityV6_of_walkFinds finds with ⟨picked, picks, _, freePicked⟩
      exact ⟨picked, picks, freePicked⟩
    · rcases spares with allHeld | finds' | ⟨buddies, others⟩
      · exact absurd (allHeld e queued) (by simp [free])
      · exact absurd finds' finds
      · by_cases buddy : exists b, rq.BuddyWins queries b
        · rcases buddy with ⟨b, wins⟩
          exact ⟨b, pickNextEntityV6_of_buddyWins finds wins, buddies b wins⟩
        · rw [not_exists] at buddy
          rcases others buddy with ⟨seconds, leftmosts⟩
          by_cases second : exists s, rq.SecondWins queries s
          · rcases second with ⟨s, wins⟩
            exact ⟨s, pickNextEntityV6_of_secondWins finds buddy wins, seconds s wins⟩
          · rw [not_exists] at second
            obtain ⟨se, leftmost⟩ :=
              Option.isSome_iff_exists.mp (left_isSome queries queued)
            exact ⟨se, pickNextEntityV6_of_left finds buddy second leftmost,
              leftmosts second se leftmost⟩

/-- The held task in the tree is picked although `curr` could run: without a
successor in the tree there is no walk, and `curr` fails the gate. -/
theorem pickNextEntityV6_held_heldFirst :
    ¬ ((exists e, heldFirst.Queued e ∧ heldZero.autoLockDontSched e = false) ->
      exists picked, heldFirst.pickNextEntityV6 heldZero = some picked ∧
        heldZero.autoLockDontSched picked = false) := by
  intro avoids
  rcases avoids ⟨1, Or.inr rfl, by decide⟩ with ⟨picked, picks, free⟩
  have isZero : heldFirst.pickNextEntityV6 heldZero = some 0 := by decide
  cases picks.symm.trans isZero
  exact absurd free (by decide)

end CfsRq

end Kernel
end Autolock
