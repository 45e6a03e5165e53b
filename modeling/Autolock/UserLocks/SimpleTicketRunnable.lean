import Autolock.UserLocks.Arming
import Autolock.UserLocks.SimpleTicket

namespace Autolock
namespace UserLocks

open Concurrency

/-!
# When the waiters of the simple ticket lock may run

A waiter is meant to be schedulable as soon as `cur_count` shows its ticket,
so that it need not disarm its page before it takes the lock.  This is so once
its page is fully armed.  While it is being armed, the page still contains the
value or the polarity of an earlier wait, and a ticket that comes up in that
window may find its owner held back for good.
-/

namespace SimpleTicketPc

/-- The ticket of a thread that has not seen its turn, or has not yet disarmed its page. -/
def ticketNum? : SimpleTicketPc -> Option UInt32
  | .firstLoad ticketNum | .setWatchMem ticketNum | .setWatchFor ticketNum
  | .setWatchNeq ticketNum | .loadCur ticketNum | .disarm ticketNum => some ticketNum
  | _ => none

def armStage : SimpleTicketPc -> ArmStage
  | .setWatchFor _ => .addressed
  | .setWatchNeq _ => .expecting
  | .loadCur _ | .disarm _ => .armed
  | _ => .disarmed

/-- Inside `lock`: the function has been called and has not returned. -/
def inLock (pc : SimpleTicketPc) : Bool :=
  pc == .fetchAdd || pc.ticketNum?.isSome

end SimpleTicketPc

/-- How the kernel reads the watched word. -/
def SimpleTicketLock.read (lock : SimpleTicketLock) : SimpleTicketWord -> UInt32
  | .curCount => lock.curCount

namespace SimpleTicket

variable {Tid : Type}

def watching : Watching SimpleTicketThread SimpleTicketWord where
  page := SimpleTicketThread.page
  watch := fun l => l.pc.ticketNum?.map fun ticketNum => (.curCount, ticketNum, l.pc.armStage)

/-- The thread's ticket equals `cur_count`, or it holds the lock. -/
def Entitled (lock : SimpleTicketLock) (l : SimpleTicketThread) : Prop :=
  l.pc.ticketNum? = some lock.curCount ∨ l.pc.holdsLock = true

/-- The kernel holds back no thread whose turn it is. -/
def Runnable (s : Machine Tid SimpleTicketLock SimpleTicketThread) : Prop :=
  forall t, Entitled s.shared (s.thread t) -> (s.thread t).page.held s.shared.read = false

/-- What an earlier wait has left in the page does not hold the owner of the given ticket back. -/
def HarmlessAt (ticketNum : UInt32) (l : SimpleTicketThread) : Prop :=
  l.pc.ticketNum? = some ticketNum -> l.page.Harmless ticketNum l.pc.armStage

/-- A store to the page of a thread whose ticket has come up leaves it harmless. -/
def ArmsHarmlessly (curCount : UInt32) (l : SimpleTicketThread) : Prop :=
  match l.pc with
  | .setWatchMem ticketNum => ticketNum = curCount -> l.page.Harmless ticketNum .addressed
  | .setWatchFor ticketNum => ticketNum = curCount -> l.page.Harmless ticketNum .expecting
  | _ => True

/-- The condition on a step: if it lets a ticket come up, or arms a page
further for a ticket that has come up, then nothing that an earlier wait has
left in the page holds the owner of the ticket back. -/
def GrantsHarmlessly (s : Machine Tid SimpleTicketLock SimpleTicketThread) (t : Tid) : Prop :=
  match (s.thread t).pc with
  | .unlockStore curCount => forall u, HarmlessAt (curCount + 1) (s.thread u)
  | _ => ArmsHarmlessly s.shared.curCount (s.thread t)

/-- Runs in which every step grants harmlessly. -/
def harmlessly : TransitionSystem.Guard (Machine Tid SimpleTicketLock SimpleTicketThread)
    (Tid × SimpleTicketEvent) :=
  fun _ s label _ => GrantsHarmlessly s label.1

/-! ## One step -/

theorem watch_eq {l : SimpleTicketThread} {ticketNum : UInt32}
    (ticket : l.pc.ticketNum? = some ticketNum) :
    watching.watch l = some (.curCount, ticketNum, l.pc.armStage) := by
  simp only [watching, ticket, Option.map_some]

theorem watch_eq_none {l : SimpleTicketThread} (ticket : l.pc.ticketNum? = none) :
    watching.watch l = none := by
  simp only [watching, ticket, Option.map_none]

theorem harmlessIn_iff {lock : SimpleTicketLock} {l : SimpleTicketThread} :
    watching.HarmlessIn lock.read l <-> HarmlessAt lock.curCount l := by
  unfold HarmlessAt
  cases ticket : l.pc.ticketNum? with
  | none => exact iff_of_true (Watching.harmlessIn_of_none (watch_eq_none ticket)) nofun
  | some ticketNum =>
      rw [Watching.harmlessIn_iff (watch_eq ticket), Option.some.injEq]
      constructor
      · rintro harmless rfl
        exact harmless rfl
      · intro harmless granted
        rcases (show ticketNum = lock.curCount from granted.symm) with rfl
        exact harmless rfl

/-- A holder is disarmed, and a waiter whose turn it is may run if its page is harmless. -/
theorem held_iff {lock : SimpleTicketLock} {l : SimpleTicketThread} (ok : watching.PageOk l) :
    (Entitled lock l -> l.page.held lock.read = false) <-> HarmlessAt lock.curCount l := by
  rw [← harmlessIn_iff, ← ok.held_iff]
  constructor
  · rintro runnable ⟨p, v, stage, waits, granted⟩
    rcases Option.map_eq_some_iff.mp waits with ⟨ticketNum, ticket, same⟩
    cases same
    exact runnable (Or.inl (ticket.trans (congrArg some granted.symm)))
  · rintro runnable (ticket | holds)
    · exact runnable ⟨_, _, _, watch_eq ticket, rfl⟩
    · apply KernelAutolockAbi.held_disarmed
      apply ok.disarmed
      apply watch_eq_none
      revert holds
      cases l.pc <;> first | exact fun _ => rfl | exact nofun

/-- The steps: `unlock` shows the next ticket; every other one leaves
`cur_count` alone, and its thread harmless exactly if it arms harmlessly. -/
theorem step_cases {t : Tid} {action : SimpleTicketAction} {lock lock' : SimpleTicketLock}
    {l l' : SimpleTicketThread} {event : SimpleTicketEvent}
    (stepped : step true t action lock l = some (lock', l', event))
    (ok : watching.PageOk l) :
    watching.PageOk l' ∧
      ((exists curCount, l.pc = .unlockStore curCount ∧ lock'.curCount = curCount + 1 ∧
          l'.pc.ticketNum? = none) ∨
        ((forall curCount, l.pc ≠ .unlockStore curCount) ∧ lock'.curCount = lock.curCount ∧
          (HarmlessAt lock'.curCount l' <-> ArmsHarmlessly lock.curCount l))) := by
  rcases l with ⟨pc, page⟩
  cases pc <;> cases action <;> simp only [step, reduceCtorEq] at stepped
  case unlockStore.run curCount =>
    cases stepped
    exact ⟨ok, Or.inl ⟨curCount, rfl, rfl, rfl⟩⟩
  case tryLoadCur.run ticketNum =>
    split at stepped <;> cases stepped <;>
      exact ⟨ok, Or.inr ⟨nofun, rfl, iff_of_true nofun trivial⟩⟩
  case tryCompareExchange.run ticketNum =>
    split at stepped <;> cases stepped <;>
      exact ⟨ok, Or.inr ⟨nofun, rfl, iff_of_true nofun trivial⟩⟩
  case fetchAdd.run =>
    cases stepped
    exact ⟨ok, Or.inr ⟨nofun, rfl, iff_of_true (fun _ => trivial) trivial⟩⟩
  case firstLoad.run ticketNum =>
    split at stepped <;> cases stepped
    · exact ⟨ok, Or.inr ⟨nofun, rfl, iff_of_true nofun trivial⟩⟩
    · exact ⟨ok, Or.inr ⟨nofun, rfl, iff_of_true (fun _ => trivial) trivial⟩⟩
  -- The first two stores to the page are the ones that may do harm.
  case setWatchMem.run ticketNum =>
    cases stepped
    refine ⟨rfl, Or.inr ⟨nofun, rfl, ?_⟩⟩
    constructor
    · rintro harmless rfl
      exact harmless rfl
    · rintro harmless ⟨⟩
      exact harmless rfl
  case setWatchFor.run ticketNum =>
    cases stepped
    refine ⟨KernelAutolockAbi.At.expect ok, Or.inr ⟨nofun, rfl, ?_⟩⟩
    constructor
    · rintro harmless rfl
      exact harmless rfl
    · rintro harmless ⟨⟩
      exact harmless rfl
  case setWatchNeq.run ticketNum =>
    cases stepped
    exact ⟨KernelAutolockAbi.At.arm ok, Or.inr ⟨nofun, rfl, iff_of_true (fun _ => trivial) trivial⟩⟩
  case loadCur.run ticketNum =>
    split at stepped <;> cases stepped <;>
      exact ⟨ok, Or.inr ⟨nofun, rfl, iff_of_true (fun _ => trivial) trivial⟩⟩
  case disarm.run ticketNum =>
    cases stepped
    exact ⟨rfl, Or.inr ⟨nofun, rfl, iff_of_true nofun trivial⟩⟩
  -- Every other step moves a disarmed thread that has no ticket.
  all_goals cases stepped
  all_goals exact ⟨ok, Or.inr ⟨nofun, rfl, iff_of_true nofun trivial⟩⟩

theorem runnable_iff {s : Machine Tid SimpleTicketLock SimpleTicketThread}
    (pages : forall t, watching.PageOk (s.thread t)) :
    Runnable s <-> forall t, HarmlessAt s.shared.curCount (s.thread t) :=
  forall_congr' fun t => held_iff (pages t)

/-- From a state in which whoever is entitled may run, a step leads to such a
state exactly if it grants harmlessly. -/
theorem next_runnable_iff [DecidableEq Tid]
    {s s' : Machine Tid SimpleTicketLock SimpleTicketThread} {label : Tid × SimpleTicketEvent}
    (moved : (system true).next s label s') (pages : forall t, watching.PageOk (s.thread t))
    (runnable : Runnable s) :
    (forall t, watching.PageOk (s'.thread t)) ∧ (Runnable s' <-> GrantsHarmlessly s label.1) := by
  rcases Program.system_next moved with ⟨action, lock', l', stepped, rfl⟩
  rcases step_cases (show SimpleTicket.step true label.1 _ _ _ = _ from stepped) (pages label.1)
    with ⟨ok', kind⟩
  have pages' : forall u, watching.PageOk (Function.update s.thread label.1 l' u) :=
    (Function.forall_update_iff s.thread fun _ l => watching.PageOk l).mpr
      ⟨ok', fun u _ => pages u⟩
  have harmless := (runnable_iff pages).mp runnable
  refine ⟨pages', (runnable_iff pages').trans ?_⟩
  rw [Function.forall_update_iff s.thread fun _ l => HarmlessAt lock'.curCount l]
  unfold GrantsHarmlessly
  rcases kind with ⟨curCount, pc, shown, apart⟩ | ⟨pc, same, own⟩
  · -- The owner of the next ticket is another thread.
    have notMine : forall {l : SimpleTicketThread}, l.pc.ticketNum? = none ->
        HarmlessAt (curCount + 1) l := by
      intro l none isMine
      rw [none] at isMine
      cases isMine
    rw [pc, shown]
    constructor
    · rintro ⟨_, others⟩ u
      by_cases itself : u = label.1
      · subst itself
        exact notMine (by rw [pc]; rfl)
      · exact others u itself
    · intro all
      exact ⟨notMine apart, fun u _ => all u⟩
  · have others : forall u, u ≠ label.1 -> HarmlessAt lock'.curCount (s.thread u) := by
      intro u _
      rw [same]
      exact harmless u
    rw [and_iff_left others, own]
    cases at_pc : (s.thread label.1).pc <;> first | rfl | exact absurd at_pc (pc _)

/-! ## Every run -/

/-- Nobody waits and every page is disarmed. -/
theorem init_runnable {s : Machine Tid SimpleTicketLock SimpleTicketThread} (initial : init s) :
    (forall t, watching.PageOk (s.thread t)) ∧ Runnable s := by
  rcases initial with ⟨_, outside⟩
  have idle : forall t, (s.thread t).pc.ticketNum? = none := by
    intro t
    rw [(outside t).1]
    rfl
  have pages : forall t, watching.PageOk (s.thread t) := by
    intro t
    rw [Watching.PageOk, watch_eq_none (idle t)]
    exact (outside t).2
  refine ⟨pages, (runnable_iff pages).mpr fun t => ?_⟩
  rw [HarmlessAt, idle]
  exact nofun

/-- In every run whose steps grant harmlessly no thread whose ticket equals
`cur_count`, and no holder, is ever held, and a thread is disarmed whenever it
is outside `lock`; the first step that does not grant harmlessly holds one. -/
theorem turn_runnable_iff [DecidableEq Tid]
    {trace : List (Tid × SimpleTicketEvent)} {s : Machine Tid SimpleTicketLock SimpleTicketThread}
    (run : (system true).Run harmlessly trace s) :
    Runnable s ∧ (forall t, (s.thread t).pc.inLock = false -> (s.thread t).page.watchMem = none) ∧
      forall label s', (system true).next s label s' ->
        (Runnable s' <-> GrantsHarmlessly s label.1) := by
  rcases run.exact (fun _ => init_runnable) fun _ _ _ _ pages runnable moved =>
    next_runnable_iff moved pages runnable with ⟨⟨pages, runnable⟩, next_iff⟩
  refine ⟨runnable, fun t returned => ?_, next_iff⟩
  rw [SimpleTicketPc.inLock, Bool.or_eq_false_iff, Option.isSome_eq_false_iff,
    Option.isNone_iff_eq_none] at returned
  exact (pages t).disarmed (watch_eq_none returned.2)

instance (ticketNum : UInt32) (l : SimpleTicketThread) : Decidable (HarmlessAt ticketNum l) :=
  inferInstanceAs (Decidable (_ -> _))

instance (s : Machine Bool SimpleTicketLock SimpleTicketThread) (t : Bool) :
    Decidable (GrantsHarmlessly s t) := by
  unfold GrantsHarmlessly ArmsHarmlessly
  split
  · infer_instance
  · split <;> infer_instance

/-- One thread holds the lock while the other makes some of the stores that
arm its page, which is fresh. -/
def armBehindHolder (stores : Nat) : List (Bool × SimpleTicketAction) :=
  [(false, .callLock), (false, .run), (false, .run), (true, .callLock), (true, .run), (true, .run)] ++
    List.replicate stores (true, .run) ++
    [(false, .callUnlock), (false, .run), (false, .run)]

/-- The page is fully armed when the ticket comes up. -/
theorem turn_runnable_iff_armed :
    let s := ((program Bool true).play (armBehindHolder 3) (fresh Bool)).1
    Entitled s.shared (s.thread true) ∧ Runnable s :=
  ⟨Or.inl (by decide), (turn_runnable_iff
    (Program.run_play_decided fresh_init (armBehindHolder 3) (by decide))).1⟩

/-- Only the address has been stored when the ticket comes up. -/
theorem turn_held_halfArmed :
    exists trace, exists s : Machine Bool SimpleTicketLock SimpleTicketThread,
      (system true).Run TransitionSystem.unguarded trace s ∧
        (s.thread true).pc.ticketNum? = some s.shared.curCount ∧
        (s.thread true).page.held s.shared.read = true :=
  ⟨_, _, Program.run_play fresh_init (armBehindHolder 1) (by decide), by decide, by decide⟩

end SimpleTicket

end UserLocks
end Autolock
