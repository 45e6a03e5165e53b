import Autolock.UserLocks.CptltktSafety

namespace Autolock
namespace UserLocks

open Concurrency

/-!
# When the waiters of the cohort lock may run

A thread waits twice with the same page: for the grant of its socket and then
for a slot of the grants array.  The first time the address is stored last.
The second time the page is still armed for the grant of the socket when the
ticket of the outer lock becomes the expected value, so that until the address
is stored as well the kernel compares the one counter with a ticket of the
other.  A thread whose outer ticket is already granted may then be held back.
-/

namespace CptltktPc

variable {N : Nat} [NeZero N]

/-- The word that a thread waits on, with its ticket. -/
def awaits? : CptltktPc N -> Option (CptltktWord N × UInt32)
  | .setWatchFor psl reqNum | .setWatchNeq psl reqNum | .setWatchMem psl reqNum
  | .pausing psl reqNum _ | .yielding psl reqNum => some (.grant psl, reqNum)
  | .setInterWatchFor _ reqNum | .setInterWatchNeq _ reqNum | .setInterWatchMem _ reqNum
  | .interYielding _ reqNum => some (.grants (Cptltkt.reqIdx reqNum), reqNum)
  | _ => none

/-- The store to a grant that leads from one program counter to another. -/
def stores? : CptltktPc N -> CptltktPc N -> Option (CptltktWord N × UInt32)
  | .passGrant psl nextGrant, _ | .storeGrant psl nextGrant, _
  | .releaseBoth psl nextGrant _, .storeGrants _ => some (.grant psl, nextGrant)
  | .storeGrants reqNum, _ | .releaseBoth _ _ reqNum, .storeGrant _ _ =>
      some (.grants (Cptltkt.reqIdx reqNum), reqNum)
  | _, _ => none

/-- The word that the page of a thread watches. -/
def watched? : CptltktPc N -> Option (CptltktWord N)
  | .pausing psl _ _ | .yielding psl _ | .loadSocketGrant psl | .clearSocketGrant psl
  | .disarm psl | .fetchAddRequest psl | .setInterWatchFor psl _ | .setInterWatchNeq psl _
  | .setInterWatchMem psl _ => some (.grant psl)
  | .interYielding _ reqNum | .interDisarm _ reqNum => some (.grants (Cptltkt.reqIdx reqNum))
  | _ => none

omit [NeZero N] in
/-- Inside `lock`: the function has been called and has not returned. -/
def inLock : CptltktPc N -> Bool
  | .fetchAddRequests _ | .setWatchFor _ _ | .setWatchNeq _ _ | .setWatchMem _ _
  | .pausing _ _ _ | .yielding _ _ | .loadSocketGrant _ | .clearSocketGrant _ | .disarm _
  | .fetchAddRequest _ | .setInterWatchFor _ _ | .setInterWatchNeq _ _ | .setInterWatchMem _ _
  | .interYielding _ _ | .interDisarm _ _ | .storeCurPsl _ _ | .storeOwnerReqNum _ _ => true
  | _ => false

end CptltktPc

/-- How the kernel reads a watched word. -/
def CptltktLock.read {N : Nat} (lock : CptltktLock N) : CptltktWord N -> UInt32
  | .grant psl => lock.grant psl
  | .grants reqIdx => lock.grants reqIdx

namespace Cptltkt

variable {Tid : Type} {N : Nat} [NeZero N]

/-- The thread does not wait, or what it waits for has been granted. -/
def Entitled (lock : CptltktLock N) (l : CptltktThread N) : Prop :=
  forall w ticket, l.pc.awaits? = some (w, ticket) -> lock.read w = ticket

/-- The kernel holds back no thread except for a ticket that is not granted. -/
def Runnable (s : Machine Tid (CptltktLock N) (CptltktThread N)) : Prop :=
  forall t, Entitled s.shared (s.thread t) -> (s.thread t).page.held s.shared.read = false

/-- Whoever is granted its ticket stays so as long as it waits. -/
def StaysGranted (s s' : Machine Tid (CptltktLock N) (CptltktThread N)) : Prop :=
  forall t w ticket, (s.thread t).pc.awaits? = some (w, ticket) -> s.shared.read w = ticket ->
    (s'.thread t).pc.awaits? = some (w, ticket) -> s'.shared.read w = ticket

/-- The store of a ticket in a grant does no harm to a thread: the grant is not
one that the thread was given and still waits for or watches, and if it is
given the grant its page does not still watch another word in vain. -/
structure Spared (lock : CptltktLock N) (w : CptltktWord N) (ticket : UInt32)
    (l : CptltktThread N) : Prop where
  waits : l.pc.awaits? = some (w, lock.read w) -> ticket = lock.read w
  watches : l.page.watchMem = some w -> Entitled lock l -> ticket = l.page.watchFor
  given : l.pc.awaits? = some (w, ticket) ->
    l.page.watchMem = some w ∨ l.page.Answered lock.read

/-- The store of an outer ticket that is granted already, as the expected
value of the page, does no harm: the grant of the socket has the same value. -/
def RearmsHarmlessly (lock : CptltktLock N) (l : CptltktThread N) : Prop :=
  match l.pc with
  | .setInterWatchFor psl reqNum => lock.grants (reqIdx reqNum) = reqNum -> lock.grant psl = reqNum
  | _ => True

/-- The condition on a step of a thread, which leads to the given program counter. -/
def GrantsHarmlessly (s : Machine Tid (CptltktLock N) (CptltktThread N)) (t : Tid)
    (pc' : CptltktPc N) : Prop :=
  match (s.thread t).pc.stores? pc' with
  | some (w, ticket) => forall u, u ≠ t -> Spared s.shared w ticket (s.thread u)
  | none => RearmsHarmlessly s.shared (s.thread t)

/-- Runs in which every step grants harmlessly. -/
def harmlessly : TransitionSystem.Guard (Machine Tid (CptltktLock N) (CptltktThread N))
    (Tid × CptltktEvent) :=
  fun _ s label s' => GrantsHarmlessly s label.1 (s'.thread label.1).pc

/-! ## The page -/

/-- The page watches the grant of a socket, with some expected value. -/
def Watches (page : KernelAutolockAbi (CptltktWord N)) (psl : Fin N) : Prop :=
  page.watchMem = some (.grant psl) ∧ page.watchNeq = 0

/-- What the page of a thread contains at each program counter. -/
def PageOk (l : CptltktThread N) : Prop :=
  match l.pc with
  | .setWatchNeq _ reqNum => l.page.watchMem = none ∧ l.page.watchFor = reqNum
  | .setWatchMem _ reqNum =>
      l.page.watchMem = none ∧ l.page.watchFor = reqNum ∧ l.page.watchNeq = 0
  | .pausing psl reqNum _ | .yielding psl reqNum =>
      Watches l.page psl ∧ l.page.watchFor = reqNum
  | .loadSocketGrant psl | .clearSocketGrant psl | .disarm psl | .fetchAddRequest psl
  | .setInterWatchFor psl _ => Watches l.page psl
  | .setInterWatchNeq psl reqNum | .setInterWatchMem psl reqNum =>
      Watches l.page psl ∧ l.page.watchFor = reqNum
  | .interYielding _ reqNum | .interDisarm _ reqNum =>
      l.page.watchMem = some (.grants (reqIdx reqNum)) ∧ l.page.watchFor = reqNum ∧
        l.page.watchNeq = 0
  | _ => l.page.watchMem = none

section page

variable {l : CptltktThread N}

theorem PageOk.watchMem_eq (ok : PageOk l) : l.page.watchMem = l.pc.watched? := by
  rcases l with ⟨pc, page⟩
  cases pc <;> first | exact ok | exact ok.1 | exact ok.1.1

theorem PageOk.polarity (ok : PageOk l) : l.page.watchMem = none ∨ l.page.watchNeq = 0 := by
  have watchMem := ok.watchMem_eq
  rcases l with ⟨pc, page⟩
  cases pc <;> first | exact Or.inl watchMem | exact Or.inr ok.2 | exact Or.inr ok.1.2 |
    exact Or.inr ok.2.2

/-- A page that watches the word that its thread waits on expects the ticket. -/
theorem PageOk.expects (ok : PageOk l) {w : CptltktWord N} {ticket : UInt32}
    (awaits : l.pc.awaits? = some (w, ticket)) (armed : l.page.watchMem = some w) :
    l.page.watchFor = ticket := by
  rw [ok.watchMem_eq] at armed
  rcases l with ⟨pc, page⟩
  cases pc <;> cases awaits <;> cases armed
  case pausing => exact ok.2
  case yielding => exact ok.2
  case interYielding => exact ok.2.1

theorem PageOk.returned (ok : PageOk l) (outside : l.pc.inLock = false) :
    l.page.watchMem = none := by
  rw [ok.watchMem_eq]
  cases at_pc : l.pc <;> rw [at_pc] at outside <;> first | rfl | cases outside

/-- An entitled thread watches nothing, or a word that has the expected value. -/
def Ready (lock : CptltktLock N) (l : CptltktThread N) : Prop :=
  Entitled lock l -> l.page.Answered lock.read

theorem runnable_iff {s : Machine Tid (CptltktLock N) (CptltktThread N)}
    (pages : forall t, PageOk (s.thread t)) :
    Runnable s <-> forall t, Ready s.shared (s.thread t) :=
  forall_congr' fun t =>
    imp_congr_right fun _ => KernelAutolockAbi.held_iff_answered (pages t).polarity

end page

/-! ## A store to a grant -/

section stores

variable {lock lock' : CptltktLock N} {l : CptltktThread N} {w : CptltktWord N} {ticket : UInt32}

omit [NeZero N] in
theorem read_storeGrant (lock : CptltktLock N) (psl : Fin N) (v : UInt32) :
    CptltktLock.read { lock with grant := Function.update lock.grant psl v } =
      Function.update lock.read (.grant psl) v := by
  funext w
  cases w with
  | grant s => by_cases same : s = psl <;> simp [CptltktLock.read, same]
  | grants i => simp [CptltktLock.read]

omit [NeZero N] in
theorem read_storeGrants (lock : CptltktLock N) (i : Fin N) (v : UInt32) :
    CptltktLock.read { lock with grants := Function.update lock.grants i v } =
      Function.update lock.read (.grants i) v := by
  funext w
  cases w with
  | grant s => simp [CptltktLock.read]
  | grants j => by_cases same : j = i <;> simp [CptltktLock.read, same]

theorem Spared.stays (spared : Spared lock w ticket l)
    (stored : lock'.read = Function.update lock.read w ticket) {w' : CptltktWord N}
    {ticket' : UInt32} (awaits : l.pc.awaits? = some (w', ticket'))
    (granted : lock.read w' = ticket') : lock'.read w' = ticket' := by
  rw [stored]
  by_cases same : w' = w
  · subst same
    rw [Function.update_self, ← granted]
    exact spared.waits (granted ▸ awaits)
  · rw [Function.update_of_ne same]
    exact granted

/-- A store spares a thread exactly if it takes no grant from it and leaves it ready. -/
theorem ready_store_iff (stored : lock'.read = Function.update lock.read w ticket)
    (ok : PageOk l) (ready : Ready lock l) :
    (Ready lock' l ∧ forall w' ticket', l.pc.awaits? = some (w', ticket') ->
      lock.read w' = ticket' -> lock'.read w' = ticket') <-> Spared lock w ticket l := by
  have readSelf : lock'.read w = ticket := by
    rw [stored, Function.update_self]
  have readOther : forall p, p ≠ w -> lock'.read p = lock.read p := by
    intro p different
    rw [stored, Function.update_of_ne different]
  constructor
  · rintro ⟨ready', stays⟩
    have entitled' : Entitled lock l -> Entitled lock' l :=
      fun entitled p v awaits => stays p v awaits (entitled p v awaits)
    refine ⟨fun awaits => ?_, fun armed entitled => ?_, fun awaits => ?_⟩
    · exact readSelf.symm.trans (stays w _ awaits rfl)
    · have answered := ready' (entitled' entitled)
      simp only [KernelAutolockAbi.Answered, armed] at answered
      exact readSelf.symm.trans answered
    · have answered : l.page.Answered lock'.read := by
        apply ready'
        intro p v awaits'
        cases awaits.symm.trans awaits'
        exact readSelf
      cases armed : l.page.watchMem with
      | none => exact Or.inr (.of_disarmed armed)
      | some p =>
          by_cases same : p = w
          · exact Or.inl (congrArg some same)
          · simp only [KernelAutolockAbi.Answered, armed, readOther p same] at answered
            exact Or.inr (.of_expected armed answered)
  · intro spared
    refine ⟨fun entitled' => ?_, fun w' ticket' awaits granted =>
      spared.stays stored awaits granted⟩
    cases armed : l.page.watchMem with
    | none => exact .of_disarmed armed
    | some p =>
        refine .of_expected armed ?_
        -- The thread was entitled before, or it is the store that entitles it.
        by_cases before : Entitled lock l
        · by_cases same : p = w
          · subst same
            exact readSelf.trans (spared.watches armed before)
          · have answered := ready before
            simp only [KernelAutolockAbi.Answered, armed] at answered
            exact (readOther p same).trans answered
        · unfold Entitled at before
          push Not at before
          rcases before with ⟨w', ticket', awaits, notGranted⟩
          have granted := entitled' w' ticket' awaits
          have now : w' = w := by
            by_contra different
            exact notGranted ((readOther w' different).symm.trans granted)
          subst now
          have isTicket : ticket = ticket' := readSelf.symm.trans granted
          subst isTicket
          by_cases same : p = w'
          · subst same
            exact readSelf.trans (ok.expects awaits armed).symm
          · rcases spared.given awaits with watched | answered
            · exact absurd (Option.some.inj (armed.symm.trans watched)) same
            · simp only [KernelAutolockAbi.Answered, armed] at answered
              exact (readOther p same).trans answered

end stores

/-! ## One step -/

/-- The kinds of step, as far as the grants and the page of its thread are concerned. -/
inductive GrantEffect (lock lock' : CptltktLock N) (l l' : CptltktThread N) : Prop
  | stores (w : CptltktWord N) (ticket : UInt32) (store : l.pc.stores? l'.pc = some (w, ticket))
      (read : lock'.read = Function.update lock.read w ticket)
      (idle : l'.pc.awaits? = none) (disarmed : l'.page.watchMem = none)
  | quiet (noStore : l.pc.stores? l'.pc = none) (read : lock'.read = lock.read)
      (own : Ready lock l -> (Ready lock l' <-> RearmsHarmlessly lock l))

section effect

variable {lock lock' : CptltktLock N} {l l' : CptltktThread N}

theorem Ready.of_disarmed (disarmed : l.page.watchMem = none) : Ready lock l :=
  fun _ => .of_disarmed disarmed

/-- Nothing is asked of the grants for a thread that waits for none. -/
theorem Entitled.of_idle (idle : l.pc.awaits? = none) : Entitled lock l := by
  intro w ticket awaits
  cases idle.symm.trans awaits

/-- A waiter with an armed page is ready. -/
theorem Ready.of_armed {w : CptltktWord N} {ticket : UInt32}
    (awaits : l.pc.awaits? = some (w, ticket)) (armed : l.page.watchMem = some w)
    (expects : l.page.watchFor = ticket) : Ready lock l :=
  fun entitled => .of_expected armed ((entitled w ticket awaits).trans expects.symm)

/-- A step after which the thread is ready again, and which arms nothing anew. -/
theorem GrantEffect.ready (noStore : l.pc.stores? l'.pc = none) (read : lock'.read = lock.read)
    (harmless : RearmsHarmlessly lock l) (kept : Ready lock l -> Ready lock l') :
    GrantEffect lock lock' l l' :=
  .quiet noStore read fun before => iff_of_true (kept before) harmless

theorem step_effect_grants {t : Tid} {action : CptltktAction N} {event : CptltktEvent}
    (stepped : step true t action lock l = some (lock', l', event)) (ok : PageOk l) :
    PageOk l' ∧ GrantEffect lock lock' l l' := by
  rcases l with ⟨pc, page⟩
  cases pc <;> cases action <;> simp only [step, reduceCtorEq, if_true] at stepped
  case passGrant.run psl nextGrant =>
    cases stepped
    exact ⟨ok, .stores _ _ rfl (read_storeGrant ..) rfl ok⟩
  case storeGrant.run psl nextGrant =>
    cases stepped
    exact ⟨ok, .stores _ _ rfl (read_storeGrant ..) rfl ok⟩
  case releaseBoth.runReordered psl nextGrant reqNum =>
    cases stepped
    exact ⟨ok, .stores _ _ rfl (read_storeGrant ..) rfl ok⟩
  case storeGrants.run reqNum =>
    cases stepped
    exact ⟨ok, .stores _ _ rfl (read_storeGrants ..) rfl ok⟩
  case releaseBoth.run psl nextGrant reqNum =>
    cases stepped
    exact ⟨ok, .stores _ _ rfl (read_storeGrants ..) rfl ok⟩
  -- The first wait: the address is stored last.
  case setWatchFor.run psl reqNum =>
    cases stepped
    exact ⟨⟨ok, rfl⟩, .ready rfl rfl trivial fun _ => .of_disarmed ok⟩
  case setWatchNeq.run psl reqNum =>
    cases stepped
    exact ⟨⟨ok.1, ok.2, rfl⟩, .ready rfl rfl trivial fun _ => .of_disarmed ok.1⟩
  case setWatchMem.run psl reqNum =>
    cases stepped
    exact ⟨⟨⟨rfl, ok.2.2⟩, ok.2.1⟩, .ready rfl rfl trivial fun _ => .of_armed rfl rfl ok.2.1⟩
  case pausing.run psl reqNum tmpWaitIters =>
    split at stepped
    · next granted =>
        cases stepped
        refine ⟨ok.1, .ready rfl rfl trivial fun _ _ => ?_⟩
        exact .of_expected ok.1.1 (granted.trans ok.2.symm)
    · cases stepped
      cases lockWaitNext tmpWaitIters <;>
        exact ⟨ok, .ready rfl rfl trivial fun _ => .of_armed rfl ok.1.1 ok.2⟩
  case yielding.run psl reqNum =>
    split at stepped
    · next granted =>
        cases stepped
        refine ⟨ok.1, .ready rfl rfl trivial fun _ _ => ?_⟩
        exact .of_expected ok.1.1 (granted.trans ok.2.symm)
    · cases stepped
      exact ⟨ok, .ready rfl rfl trivial id⟩
  -- The second wait: the page is still armed for the grant of the socket.
  case loadSocketGrant.run psl =>
    split at stepped <;> cases stepped <;>
      exact ⟨ok, .ready rfl rfl trivial fun before _ => before (.of_idle rfl)⟩
  case clearSocketGrant.run psl =>
    cases stepped
    exact ⟨ok, .ready rfl rfl trivial fun before _ => before (.of_idle rfl)⟩
  case fetchAddRequest.run psl =>
    cases stepped
    exact ⟨ok, .ready rfl rfl trivial fun before _ => before (.of_idle rfl)⟩
  case setInterWatchFor.run psl reqNum =>
    cases stepped
    refine ⟨⟨ok, rfl⟩, .quiet rfl rfl fun _ => ?_⟩
    constructor
    · intro ready granted
      have answered := ready fun w ticket awaits => by
        cases awaits
        exact granted
      have armed : page.watchMem = some (.grant psl) := ok.1
      simp only [KernelAutolockAbi.Answered, KernelAutolockAbi.autolockSetKernelWatchFor,
        armed] at answered
      exact answered
    · intro harmless entitled
      exact .of_expected ok.1 (harmless (entitled _ _ rfl))
  case setInterWatchNeq.run psl reqNum =>
    cases stepped
    exact ⟨⟨⟨ok.1.1, rfl⟩, ok.2⟩, .ready rfl rfl trivial id⟩
  case setInterWatchMem.run psl reqNum =>
    cases stepped
    exact ⟨⟨rfl, ok.2, ok.1.2⟩, .ready rfl rfl trivial fun _ => .of_armed rfl rfl ok.2⟩
  case interYielding.run psl reqNum =>
    split at stepped
    · next granted =>
        cases stepped
        refine ⟨ok, .ready rfl rfl trivial fun _ _ => ?_⟩
        exact .of_expected ok.1 (granted.trans ok.2.1.symm)
    · cases stepped
      exact ⟨ok, .ready rfl rfl trivial id⟩
  case disarm.run psl =>
    cases stepped
    exact ⟨rfl, .ready rfl rfl trivial fun _ => .of_disarmed rfl⟩
  case interDisarm.run psl reqNum =>
    cases stepped
    exact ⟨rfl, .ready rfl rfl trivial fun _ => .of_disarmed rfl⟩
  -- Every other step moves a disarmed thread.
  all_goals try (split at stepped)
  all_goals cases stepped
  all_goals exact ⟨ok, .ready rfl rfl trivial fun _ => .of_disarmed ok⟩

theorem next_pageOk [DecidableEq Tid]
    {s s' : Machine Tid (CptltktLock N) (CptltktThread N)} {label : Tid × CptltktEvent}
    (moved : (system N true).next s label s') (pages : forall t, PageOk (s.thread t)) :
    forall t, PageOk (s'.thread t) := by
  rcases Program.system_next moved with ⟨action, lock', l', stepped, rfl⟩
  have ok' := (step_effect_grants (show Cptltkt.step true label.1 _ _ _ = _ from stepped)
    (pages label.1)).1
  exact (Function.forall_update_iff s.thread fun _ l => PageOk l).mpr ⟨ok', fun u _ => pages u⟩

theorem run_pageOk [DecidableEq Tid]
    {guard : TransitionSystem.Guard (Machine Tid (CptltktLock N) (CptltktThread N))
      (Tid × CptltktEvent)}
    {trace : List (Tid × CptltktEvent)} {s : Machine Tid (CptltktLock N) (CptltktThread N)}
    (run : (system N true).Run guard trace s) : forall t, PageOk (s.thread t) := by
  refine run.invariant (fun _ s => forall t, PageOk (s.thread t)) ?_ ?_
  · rintro s ⟨_, outside⟩ t
    rw [PageOk, (outside t).1]
    exact (outside t).2
  · exact fun _ s label s' pages moved _ => next_pageOk moved pages

/-- From a state in which whoever is entitled may run, a step leads to such a
state, and takes no grant back, exactly if it grants harmlessly. -/
theorem next_runnable_iff [DecidableEq Tid]
    {s s' : Machine Tid (CptltktLock N) (CptltktThread N)} {label : Tid × CptltktEvent}
    (moved : (system N true).next s label s') (pages : forall t, PageOk (s.thread t))
    (runnable : Runnable s) :
    Runnable s' ∧ StaysGranted s s' <-> GrantsHarmlessly s label.1 (s'.thread label.1).pc := by
  have pages' := next_pageOk moved pages
  rcases Program.system_next moved with ⟨action, lock', l', stepped, rfl⟩
  have effect := (step_effect_grants (show Cptltkt.step true label.1 _ _ _ = _ from stepped)
    (pages label.1)).2
  have ready := (runnable_iff pages).mp runnable
  have here : (Machine.mk lock' (Function.update s.thread label.1 l')).thread label.1 = l' :=
    Function.update_self ..
  rw [runnable_iff pages', GrantsHarmlessly, here]
  refine (and_congr_left' (Function.forall_update_iff s.thread fun _ l => Ready lock' l)).trans ?_
  cases effect with
  | stores w ticket store read idle disarmed =>
      rw [store, and_iff_right (Ready.of_disarmed disarmed)]
      have spared := fun u => ready_store_iff read (pages u) (ready u)
      constructor
      · rintro ⟨others, stays⟩ u different
        refine (spared u).mp ⟨others u different, fun w' ticket' awaits granted => ?_⟩
        refine stays u w' ticket' awaits granted ?_
        rwa [show (Machine.mk lock' (Function.update s.thread label.1 l')).thread u = s.thread u
          from Function.update_of_ne different ..]
      · intro all
        refine ⟨fun u different => ((spared u).mpr (all u different)).1,
          fun u w' ticket' awaits granted still => ?_⟩
        by_cases itself : u = label.1
        · subst itself
          rw [here, idle] at still
          cases still
        · exact ((spared u).mpr (all u itself)).2 w' ticket' awaits granted
  | quiet noStore read own =>
      have same : forall l : CptltktThread N, Ready lock' l <-> Ready s.shared l := by
        intro l
        unfold Ready Entitled
        rw [read]
      have stays : StaysGranted s ⟨lock', Function.update s.thread label.1 l'⟩ := by
        intro u w ticket _ granted _
        show lock'.read w = ticket
        rw [read]
        exact granted
      rw [noStore, and_iff_left stays, same, own (ready label.1)]
      exact and_iff_left fun u _ => (same _).mpr (ready u)

end effect

/-! ## Every run -/

/-- In every run whose steps grant harmlessly no thread is ever held except for
a ticket that is not granted, no holder is held, and a thread is disarmed
whenever it is outside `lock`.  Such a step takes no grant back, so that a
thread may run from the moment it is granted its ticket; and every other step
takes a grant back or holds a thread that is granted its ticket. -/
theorem granted_runnable_iff [DecidableEq Tid] {trace : List (Tid × CptltktEvent)}
    {s : Machine Tid (CptltktLock N) (CptltktThread N)}
    (run : (system N true).Run harmlessly trace s) :
    Runnable s ∧ (forall t, (s.thread t).pc.inLock = false -> (s.thread t).page.watchMem = none) ∧
      forall label s', (system N true).next s label s' ->
        (Runnable s' ∧ StaysGranted s s' <->
          GrantsHarmlessly s label.1 (s'.thread label.1).pc) := by
  have runnable : Runnable s := by
    induction run with
    | @start s initial =>
        have run : (system N true).Run harmlessly [] s := .start initial
        exact (runnable_iff (run_pageOk run)).mpr fun t => .of_disarmed (initial.2 t).2
    | step run moved allowed inductionHypothesis =>
        exact ((next_runnable_iff moved (run_pageOk run) inductionHypothesis).mpr allowed).1
  exact ⟨runnable, fun t outside => (run_pageOk run t).returned outside, fun label s' moved =>
    next_runnable_iff moved (run_pageOk run) runnable⟩

instance (lock : CptltktLock N) (l : CptltktThread N) : Decidable (Entitled lock l) :=
  match awaits : l.pc.awaits? with
  | none => isTrue fun w ticket awaits' => nomatch awaits.symm.trans awaits'
  | some (w, ticket) =>
      decidable_of_iff (lock.read w = ticket) <| by
        constructor
        · intro granted w' ticket' awaits'
          cases awaits.symm.trans awaits'
          exact granted
        · exact fun entitled => entitled w ticket awaits

instance (lock : CptltktLock N) (w : CptltktWord N) (ticket : UInt32) (l : CptltktThread N) :
    Decidable (Spared lock w ticket l) :=
  decidable_of_iff
    ((l.pc.awaits? = some (w, lock.read w) -> ticket = lock.read w) ∧
      (l.page.watchMem = some w -> Entitled lock l -> ticket = l.page.watchFor) ∧
      (l.pc.awaits? = some (w, ticket) -> l.page.watchMem = some w ∨ l.page.Answered lock.read))
    ⟨fun all => ⟨all.1, all.2.1, all.2.2⟩,
      fun spared => ⟨spared.waits, spared.watches, spared.given⟩⟩

instance (s : Machine Bool (CptltktLock N) (CptltktThread N)) (t : Bool) (pc' : CptltktPc N) :
    Decidable (GrantsHarmlessly s t pc') := by
  unfold GrantsHarmlessly RearmsHarmlessly
  split
  · infer_instance
  · split <;> infer_instance

/-- One thread locks and unlocks on the first of two sockets, and another one
takes some steps of `lock` on the second. -/
def crossSockets (early late : Nat) : List (Bool × CptltktAction 2) :=
  (false, .callLock 0) :: List.replicate 14 (false, .run) ++ [(true, .callLock 1)] ++
    List.replicate early (true, .run) ++ [(false, .callUnlock)] ++
    List.replicate 6 (false, .run) ++ List.replicate late (true, .run)

/-- The second thread has armed its page again when the first unlocks. -/
theorem granted_runnable_iff_crossSockets :
    let s := ((program Bool 2 true).play (crossSockets 10 0) (fresh Bool 2)).1
    (s.thread true).pc = .interYielding 1 1 ∧ Entitled s.shared (s.thread true) ∧ Runnable s :=
  ⟨by decide, by decide, (granted_runnable_iff
    (Program.run_play_decided fresh_init (crossSockets 10 0) (by decide))).1⟩

/-- The ticket of the second thread was granted before it was stored in the page. -/
theorem granted_held_rearming :
    exists trace, exists s : Machine Bool (CptltktLock 2) (CptltktThread 2),
      (system 2 true).Run TransitionSystem.unguarded trace s ∧
        (s.thread true).pc = .setInterWatchNeq 1 1 ∧ s.shared.grants (reqIdx 1) = 1 ∧
        (s.thread true).page.held s.shared.read = true :=
  ⟨_, _, Program.run_play fresh_init (crossSockets 7 1) (by decide), by decide, by decide,
    by decide⟩

/-! ## Up to half a period of sockets -/

/-- The part of the condition that is about the second wait. -/
def RearmsInTime (s : Machine Tid (CptltktLock N) (CptltktThread N)) (t : Tid)
    (pc' : CptltktPc N) : Prop :=
  match (s.thread t).pc.stores? pc' with
  | some (w, ticket) => forall u, u ≠ t -> (s.thread u).pc.awaits? = some (w, ticket) ->
      (s.thread u).page.watchMem = some w ∨ (s.thread u).page.Answered s.shared.read
  | none => RearmsHarmlessly s.shared (s.thread t)

section small

variable {g : Ghost N Tid} {lock : CptltktLock N} {t u : Tid} {l : CptltktThread N}

/-- A thread that has been granted the inner lock of a socket, and may still
rely on the grant, is the only one that may release that lock. -/
theorem holding_of_grant (explained : Explained g lock) (window : g.Window)
    (here : g.At u (place l.pc)) (ok : PageOk l) {psl : Fin N}
    (relies : l.pc.awaits? = some (.grant psl, lock.grant psl) ∨
      l.page.watchMem = some (.grant psl) ∧ Entitled lock l)
    (holds : (g.cohort.inner psl).Holding t) : t = u := by
  -- A waiter whose ticket is granted finds the inner lock free.
  have notWaiting : forall reqNum, g.At u (.waiting psl reqNum) -> lock.grant psl ≠ reqNum := by
    rintro reqNum ⟨_, i, waits, rfl⟩ granted
    have free := (explained.first window waits granted).1
    exact absurd holds.1 (by omega)
  rw [ok.watchMem_eq] at relies
  rcases l with ⟨pc, page⟩
  rcases relies with awaits | ⟨watches, entitled⟩
  · cases pc <;> cases awaits <;> exact absurd rfl (notWaiting _ here)
  · cases pc <;> cases watches
    case pausing.refl => exact absurd (entitled _ _ rfl) (notWaiting _ here)
    case yielding.refl => exact absurd (entitled _ _ rfl) (notWaiting _ here)
    case loadSocketGrant.refl => exact holds.unique here.1.holds
    case fetchAddRequest.refl => exact holds.unique here.1.holds
    case clearSocketGrant.refl => exact holds.unique here.1.holds
    case disarm.refl => exact holds.unique (Ghost.Owns.alone here).holds
    case setInterWatchFor.refl => exact holds.unique here.2.1
    case setInterWatchNeq.refl => exact holds.unique here.2.1
    case setInterWatchMem.refl => exact holds.unique here.2.1

/-- A thread that has been granted the outer lock, and may still rely on the
grant, is the only one that may have that lock. -/
theorem owner_of_grants (small : N ≤ 2 ^ 31) (explained : Explained g lock)
    (here : g.At u (place l.pc)) (ok : PageOk l) {i : Fin N}
    (relies : l.pc.awaits? = some (.grants i, lock.grants i) ∨
      l.page.watchMem = some (.grants i) ∧ Entitled lock l)
    (mine : g.cohort.token.owner? = some t) : t = u := by
  -- A waiter whose ticket is granted finds the outer lock free.
  have notWaiting : forall psl reqNum, g.At u (.interWaiting psl reqNum) ->
      lock.grants (reqIdx reqNum) ≠ reqNum := by
    rintro psl reqNum ⟨_, _, j, pending, rfl⟩ granted
    rcases explained.current small pending granted with rfl
    rw [explained.wellFormed.free_of_pending pending] at mine
    cases mine
  rw [ok.watchMem_eq] at relies
  rcases l with ⟨pc, page⟩
  rcases relies with awaits | ⟨watches, entitled⟩
  · cases pc <;> simp only [CptltktPc.awaits?, reduceCtorEq, Option.some.injEq, Prod.mk.injEq,
      CptltktWord.grants.injEq, false_and] at awaits
    all_goals
      rcases awaits with ⟨rfl, ticket⟩
      exact absurd ticket.symm (notWaiting _ _ here)
  · cases pc <;> cases watches
    case interYielding.refl => exact absurd (entitled _ _ rfl) (notWaiting _ _ here)
    case interDisarm.refl =>
      rw [here.2.1] at mine
      exact (Option.some.inj mine).symm

/-- For up to `2 ^ 31` sockets nobody stores to a grant that another thread relies on. -/
theorem grantsHarmlessly_of_small (small : N ≤ 2 ^ 31)
    {s : Machine Tid (CptltktLock N) (CptltktThread N)} (explained : Explained g s.shared)
    (window : g.Window) (places : forall u, g.At u (place (s.thread u).pc))
    (pages : forall u, PageOk (s.thread u)) {pc' : CptltktPc N} (inTime : RearmsInTime s t pc') :
    GrantsHarmlessly s t pc' := by
  have ofGrant : forall psl ticket, (g.cohort.inner psl).Holding t -> forall u, u ≠ t ->
      ((s.thread u).pc.awaits? = some (.grant psl, ticket) ->
        (s.thread u).page.watchMem = some (.grant psl) ∨
          (s.thread u).page.Answered s.shared.read) ->
      Spared s.shared (.grant psl) ticket (s.thread u) := by
    intro psl ticket holds u different given
    have alone : ¬((s.thread u).pc.awaits? = some (.grant psl, s.shared.grant psl) ∨
        (s.thread u).page.watchMem = some (.grant psl) ∧ Entitled s.shared (s.thread u)) :=
      fun relies => different
        (holding_of_grant explained window (places u) (pages u) relies holds).symm
    exact ⟨fun waits => absurd (Or.inl waits) alone,
      fun watches entitled => absurd (Or.inr ⟨watches, entitled⟩) alone, given⟩
  have ofGrants : forall i ticket, g.cohort.token.owner? = some t -> forall u, u ≠ t ->
      ((s.thread u).pc.awaits? = some (.grants i, ticket) ->
        (s.thread u).page.watchMem = some (.grants i) ∨
          (s.thread u).page.Answered s.shared.read) ->
      Spared s.shared (.grants i) ticket (s.thread u) := by
    intro i ticket mine u different given
    have alone : ¬((s.thread u).pc.awaits? = some (.grants i, s.shared.grants i) ∨
        (s.thread u).page.watchMem = some (.grants i) ∧ Entitled s.shared (s.thread u)) :=
      fun relies => different
        (owner_of_grants small explained (places u) (pages u) relies mine).symm
    exact ⟨fun waits => absurd (Or.inl waits) alone,
      fun watches entitled => absurd (Or.inr ⟨watches, entitled⟩) alone, given⟩
  have here := places t
  unfold GrantsHarmlessly
  unfold RearmsInTime at inTime
  cases at_pc : (s.thread t).pc <;> rw [at_pc] at here inTime <;> try exact inTime
  case passGrant psl nextGrant =>
    exact fun u different => ofGrant psl _ here.1.alone.holds u different (inTime u different)
  case storeGrant psl nextGrant =>
    exact fun u different => ofGrant psl _ here.1.holds u different (inTime u different)
  case storeGrants reqNum =>
    have mine : g.cohort.token.owner? = some t := here.2.1.symm ▸ rfl
    exact fun u different => ofGrants _ _ mine u different (inTime u different)
  case releaseBoth psl nextGrant reqNum =>
    cases pc'
    case storeGrant =>
      exact fun u different => ofGrants _ _ (here.1.mine rfl) u different (inTime u different)
    case storeGrants =>
      exact fun u different => ofGrant psl _ here.1.alone.holds u different (inTime u different)
    all_goals exact inTime

end small

/-- For up to `2 ^ 31` sockets, and fewer than `2 ^ 32` tickets outstanding at
each, the window of the second wait is the only one in which a thread that is
granted its ticket can be held. -/
theorem runnable_of_small [DecidableEq Tid] (small : N ≤ 2 ^ 31)
    {trace : List (Tid × CptltktEvent)} {s : Machine Tid (CptltktLock N) (CptltktThread N)}
    (run : (system N true).Run (fun trace s label s' => roomy trace s label s' ∧
      RearmsInTime s label.1 (s'.thread label.1).pc) trace s) : Runnable s := by
  have harmless : (system N true).Run harmlessly trace s := by
    refine run.transfer fun trace s label s' run moved allowed => ?_
    rcases (threadInvariant small true).run (run.weaken fun _ _ _ _ both => both.1)
      with ⟨g, _, ⟨explained, window⟩, places⟩
    exact grantsHarmlessly_of_small small explained window places (run_pageOk run) allowed.2
  exact (granted_runnable_iff harmless).1

end Cptltkt

end UserLocks
end Autolock
