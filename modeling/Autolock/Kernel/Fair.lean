import Mathlib.Data.List.Nodup

namespace Autolock
namespace Kernel

/-!
# The patched `pick_next_entity` of the fair scheduler

The red-black tree is the list of its entities from left to right.  Two
versions of the function are modelled: version 0 is the unpatched pick,
version 6 is the one the patches leave switched on, which passes over an
entity whose task is held by autolock.

Statistics and print-outs are left out; they decide nothing.
-/

/-- What the pick asks about entities: the order by virtual runtime, whether
the first may preempt the second, and `auto_lock_dont_sched` of its task. -/
structure SchedQueries (Entity : Type) where
  entityBefore : Entity -> Entity -> Bool
  wakeupPreemptEntity : Entity -> Entity -> Int
  autoLockDontSched : Entity -> Bool

/-- `struct cfs_rq`, with `curr` the second argument of the pick: the entity
that is running and therefore not in the tree, or NULL.  The buddies are NULL
or runnable. -/
structure CfsRq (Entity : Type) where
  tasksTimeline : List Entity
  curr : Option Entity
  skip : Option Entity
  next : Option Entity
  last : Option Entity
  nodup : tasksTimeline.Nodup
  curr_outside : forall c, curr = some c -> c ∉ tasksTimeline
  buddies_queued : forall b, skip = some b ∨ next = some b ∨ last = some b ->
    b ∈ tasksTimeline ∨ curr = some b

namespace CfsRq

variable {Entity : Type} [DecidableEq Entity]

/-- An entity that the pick may return. -/
def Queued (rq : CfsRq Entity) (e : Entity) : Prop :=
  e ∈ rq.tasksTimeline ∨ rq.curr = some e

/-- `__pick_first_entity` -/
def pickFirst (rq : CfsRq Entity) : Option Entity :=
  rq.tasksTimeline.head?

/-- `__pick_next_entity`: the successor in the tree. -/
def pickNext (rq : CfsRq Entity) (se : Entity) : Option Entity :=
  (rq.tasksTimeline.dropWhile (· ≠ se)).tail.head?

variable (queries : SchedQueries Entity)

/-- `curr && entity_before(curr, se)` -/
def currBefore (rq : CfsRq Entity) (se : Entity) : Bool :=
  match rq.curr with
  | none => false
  | some curr => queries.entityBefore curr se

/-- The leftmost of the tree and `curr`. -/
def left (rq : CfsRq Entity) : Option Entity :=
  match rq.pickFirst with
  | none => rq.curr
  | some first => if rq.currBefore queries first then rq.curr else some first

/-- `se && wakeup_preempt_entity(se, left) < 1`; `left` is not NULL when `se` is not. -/
def mayReplace (left : Option Entity) (se : Entity) : Bool :=
  match left with
  | none => false
  | some left => queries.wakeupPreemptEntity se left < 1

/-- The last part of the pick, the same in both versions: the buddies override `se`. -/
def preferBuddies (rq : CfsRq Entity) (left se : Option Entity) : Option Entity :=
  if rq.next.any (mayReplace queries left) then rq.next
  else if rq.last.any (mayReplace queries left) then rq.last
  else se

/-- `if (second && wakeup_preempt_entity(second, left) < 1) se = second;` -/
def preferSecond (left second se : Option Entity) : Option Entity :=
  if second.any (mayReplace queries left) then second else se

/-- The entity to run instead of `se`: the first of the tree when `se` is
`curr`, else its successor or `curr`, whichever comes first. -/
def secondChoice (rq : CfsRq Entity) (se : Entity) : Option Entity :=
  if rq.curr = some se then rq.pickFirst
  else
    match rq.pickNext se with
    | none => rq.curr
    | some second => if rq.currBefore queries second then rq.curr else some second

/-- `pick_next_entity` with `SCHED_VERSION` 0 -/
def pickNextEntityV0 (rq : CfsRq Entity) : Option Entity :=
  let left := rq.left queries
  match left with
  | none => rq.preferBuddies queries left left
  | some se =>
      if rq.skip = some se then
        rq.preferBuddies queries left
          (preferSecond queries left (rq.secondChoice queries se) left)
      else rq.preferBuddies queries left left

/-- The loop that looks for an entity which is not held, from `nextSecond` to
the right end of the tree.  The fuel is the size of the tree. -/
def firstNotHeld (rq : CfsRq Entity) : Nat -> Entity -> Option Entity
  | 0, _ => none
  | fuel + 1, nextSecond =>
      if queries.autoLockDontSched nextSecond = false then some nextSecond
      else
        match rq.pickNext nextSecond with
        | none => none
        | some nextSecond' => firstNotHeld rq fuel nextSecond'

/-- Where version 6 enters the loop: `se` is held and in the tree, and `curr`
is not before its successor. -/
def earlyReturn (rq : CfsRq Entity) (se : Entity) (dontSchedSe : Bool) : Option Entity :=
  if rq.curr = some se then none
  else
    match rq.pickNext se with
    | none => none
    | some second =>
        if rq.currBefore queries second then none
        else if dontSchedSe then rq.firstNotHeld queries rq.tasksTimeline.length second
        else none

/-- `pick_next_entity` with `SCHED_VERSION` 6.  The second operand of `||` is
what sets `dont_sched_se`, so it stays zero for the skip buddy. -/
def pickNextEntityV6 (rq : CfsRq Entity) : Option Entity :=
  let left := rq.left queries
  match left with
  | none => rq.preferBuddies queries left left
  | some se =>
      let dontSchedSe := rq.skip ≠ some se && queries.autoLockDontSched se
      if rq.skip = some se || dontSchedSe then
        match rq.earlyReturn queries se dontSchedSe with
        -- The buddies are not asked.
        | some nextSecond => some nextSecond
        | none =>
            rq.preferBuddies queries left
              (preferSecond queries left (rq.secondChoice queries se) left)
      else rq.preferBuddies queries left left

end CfsRq

end Kernel
end Autolock
