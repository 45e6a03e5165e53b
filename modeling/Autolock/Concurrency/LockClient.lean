import Autolock.Concurrency.LockSpec
import Autolock.Concurrency.Threads

namespace Autolock
namespace Concurrency

/-!
# Clients of a lock

A client says of each of its threads whether it is about to lock, about to
unlock, or about to compute.  Over the mutual exclusion specification a call of
`lock` or `unlock` is one step.  Over a lock that is itself a program it is many,
during which the thread does nothing else.  If the lock refines the
specification, then whatever its clients do over the lock they do over the
specification: the lock may be left out of every argument about them.
-/

/-- What a thread of a client does next: the calls say where the thread is after
they have returned. -/
inductive Intent (Local Event : Type) where
  | lock (l : Local) (event : Event)
  | unlock (l : Local) (event : Event)
  | compute

/-- A program that uses a lock. -/
structure LockClient (Tid Data Local Choice Event : Type) where
  intent : Local -> Intent Local Event
  compute : Tid -> Choice -> Data -> Local -> Option (Data × Local × Event)

/-- The state that the threads of a client share, with the lock. -/
structure WithLock (Lock Data : Type) where
  lock : Lock
  data : Data

namespace LockClient

variable {Tid Data Local Choice Event : Type} [DecidableEq Tid]

/-- The client over the specification, whose state is the holder. -/
def overMutex (client : LockClient Tid Data Local Choice Event) :
    Program Tid (WithLock (Option Tid) Data) Local Choice Event where
  step := fun t choice shared l =>
    match client.intent l with
    | .lock l' event =>
        if shared.lock = none then some (⟨some t, shared.data⟩, l', event) else none
    | .unlock l' event => some (⟨none, shared.data⟩, l', event)
    | .compute =>
        (client.compute t choice shared.data l).map fun result =>
          (⟨shared.lock, result.1⟩, result.2.1, result.2.2)

/-- The lock is free, and the threads start with what is given. -/
def startsOver (data : Data) (start : Tid -> Local)
    (s : Machine Tid (WithLock (Option Tid) Data) Local) : Prop :=
  s = ⟨⟨none, data⟩, start⟩

variable {client : LockClient Tid Data Local Choice Event}
  {s s' : Machine Tid (WithLock (Option Tid) Data) Local}

/-- What a step over the specification can be. -/
inductive Moves (client : LockClient Tid Data Local Choice Event)
    (s : Machine Tid (WithLock (Option Tid) Data) Local) (t : Tid) (event : Event) :
    Machine Tid (WithLock (Option Tid) Data) Local -> Prop
  | lock (l : Local) (intends : client.intent (s.thread t) = .lock l event)
      (free : s.shared.lock = none) :
      Moves client s t event ⟨⟨some t, s.shared.data⟩, Function.update s.thread t l⟩
  | unlock (l : Local) (intends : client.intent (s.thread t) = .unlock l event) :
      Moves client s t event ⟨⟨none, s.shared.data⟩, Function.update s.thread t l⟩
  | compute (choice : Choice) (data : Data) (l : Local)
      (intends : client.intent (s.thread t) = .compute)
      (computed : client.compute t choice s.shared.data (s.thread t) = some (data, l, event)) :
      Moves client s t event ⟨⟨s.shared.lock, data⟩, Function.update s.thread t l⟩

theorem moves_of_next {init : Machine Tid (WithLock (Option Tid) Data) Local -> Prop}
    {label : Tid × Event} (moved : (client.overMutex.system init).next s label s') :
    client.Moves s label.1 label.2 s' := by
  rcases label with ⟨t, event⟩
  rcases Program.system_next moved with ⟨choice, shared, l, stepped, rfl⟩
  simp only [overMutex] at stepped
  split at stepped
  · next l' event' intends =>
      split at stepped
      · next free =>
          cases stepped
          exact .lock _ intends free
      · cases stepped
  · next l' event' intends =>
      cases stepped
      exact .unlock _ intends
  · next intends =>
      rcases Option.map_eq_some_iff.mp stepped with ⟨⟨data, l', event'⟩, computed, result⟩
      cases result
      exact .compute choice data _ intends computed

theorem next_of_moves [Nonempty Choice]
    {init : Machine Tid (WithLock (Option Tid) Data) Local -> Prop} {t : Tid} {event : Event}
    (moves : client.Moves s t event s') : (client.overMutex.system init).next s (t, event) s' := by
  rcases ‹Nonempty Choice› with ⟨any⟩
  cases moves with
  | lock l intends free =>
      exact ⟨any, by simp only [Program.next, overMutex, intends, if_pos free, Option.map_some]⟩
  | unlock l intends =>
      exact ⟨any, by simp only [Program.next, overMutex, intends, Option.map_some]⟩
  | compute choice data l intends computed =>
      exact ⟨choice, by simp only [Program.next, overMutex, intends, computed, Option.map_some]⟩

/-- Between `lock` and `unlock`, and only there, a thread is where it holds the lock. -/
structure Brackets (client : LockClient Tid Data Local Choice Event) (holds : Local -> Prop) :
    Prop where
  lock : forall l l' event, client.intent l = .lock l' event -> ¬holds l ∧ holds l'
  unlock : forall l l' event, client.intent l = .unlock l' event -> holds l ∧ ¬holds l'
  compute : forall t choice data l data' l' event, client.intent l = .compute ->
    client.compute t choice data l = some (data', l', event) -> (holds l' <-> holds l)

/-- The threads that hold the lock are the holder. -/
def Excludes (holds : Local -> Prop) (s : Machine Tid (WithLock (Option Tid) Data) Local) : Prop :=
  forall t, holds (s.thread t) <-> s.shared.lock = some t

theorem Brackets.moves {holds : Local -> Prop} (brackets : client.Brackets holds) {t : Tid}
    {event : Event} (excludes : Excludes holds s) (moves : client.Moves s t event s') :
    Excludes holds s' := by
  -- The other threads keep the place that they have.
  have others : forall {shared : WithLock (Option Tid) Data} {l : Local},
      (holds l <-> shared.lock = some t) ->
      (forall u, u ≠ t -> (shared.lock = some u <-> s.shared.lock = some u)) ->
      Excludes holds ⟨shared, Function.update s.thread t l⟩ := by
    intro shared l here there u
    show holds (Function.update s.thread t l u) <-> _
    by_cases same : u = t
    · rw [same, Function.update_self]
      exact here
    · rw [Function.update_of_ne same]
      exact (excludes u).trans (there u same).symm
  cases moves with
  | lock l intends free =>
      refine others ⟨fun _ => rfl, fun _ => (brackets.lock _ _ _ intends).2⟩ fun u other => ?_
      rw [free]
      exact ⟨fun taken => absurd (Option.some.inj taken).symm other, nofun⟩
  | unlock l intends =>
      rcases brackets.unlock _ _ _ intends with ⟨held, free⟩
      refine others ⟨fun holds => absurd holds free, nofun⟩ fun u other => ?_
      rw [(excludes t).mp held]
      exact ⟨nofun, fun taken => absurd (Option.some.inj taken).symm other⟩
  | compute choice data l intends computed =>
      exact others ((brackets.compute _ _ _ _ _ _ _ intends computed).trans (excludes t))
        fun u _ => Iff.rfl

/-- In every run of a client whose calls are paired, the lock is held by the thread
that is between them. -/
theorem Brackets.run {holds : Local -> Prop} (brackets : client.Brackets holds) {data : Data}
    {start : Tid -> Local} (outside : forall t, ¬holds (start t)) {trace : List (Tid × Event)}
    (run : (client.overMutex.system (startsOver data start)).Run TransitionSystem.unguarded trace s) :
    Excludes holds s := by
  refine run.invariant (fun _ => Excludes holds) ?_ ?_
  · rintro s rfl t
    exact ⟨fun holds => absurd holds (outside t), nofun⟩
  · intro _ s label s' excludes moved _
    exact brackets.moves excludes (moves_of_next moved)

end LockClient

/-! ## Locks that are programs -/

/-- Where a thread is, as its caller sees it. -/
inductive CallPhase where
  | idle
  | locking
  | holding
  | unlocking
  | leaving
  deriving DecidableEq, Repr

/-- What an action of the lock is to its caller. -/
inductive CallKind where
  | callLock
  | callUnlock
  | goOn
  | elsewhere
  | excluded
  deriving DecidableEq, Repr

/-- How a step of a lock may look from outside: the lock is acquired in a call of
`lock`, which then returns, and released in a call of `unlock`. -/
inductive PhaseStep {Tid : Type} (t : Tid) :
    CallKind -> CallPhase -> CallPhase -> List (LockMove Tid) -> Prop
  | elsewhere : PhaseStep t .elsewhere .idle .idle []
  | callsLock : PhaseStep t .callLock .idle .locking []
  | waits {moves : List (LockMove Tid)} (arrives : moves = [] ∨ moves = [.arrive t]) :
      PhaseStep t .goOn .locking .locking moves
  | acquires : PhaseStep t .goOn .locking .holding [.acquire t]
  | callsUnlock : PhaseStep t .callUnlock .holding .unlocking []
  | unlocks : PhaseStep t .goOn .unlocking .unlocking []
  | releases {phase : CallPhase} (left : phase = .leaving ∨ phase = .idle) :
      PhaseStep t .goOn .unlocking phase [.release t]
  | leaves {phase : CallPhase} (left : phase = .leaving ∨ phase = .idle) :
      PhaseStep t .goOn .leaving phase []

/-- A lock that provides mutual exclusion, with what its callers see of it.  A
thread without a phase is in a call that the callers do not make. -/
structure LockProgram (Tid Shared Local Action Event : Type) [DecidableEq Tid] where
  program : Program Tid Shared Local Action Event
  init : Machine Tid Shared Local -> Prop
  observe : Tid × Event -> List (LockMove Tid)
  kind : Action -> CallKind
  phase : Local -> Option CallPhase
  refines : (program.system init).Simulation TransitionSystem.unguarded (mutex Tid) observe
  idle : forall s, init s -> forall t, phase (s.thread t) = some .idle
  lawful : forall t action shared l shared' l' event phase₁,
    program.step t action shared l = some (shared', l', event) -> kind action ≠ .excluded ->
    phase l = some phase₁ -> exists phase₂, phase l' = some phase₂ ∧
      PhaseStep t (kind action) phase₁ phase₂ (observe (t, event))

namespace LockClient

variable {Tid Data Local Choice Event : Type} [DecidableEq Tid]
  {Lock LockLocal LockAction LockEvent : Type}

/-- A call begins only if the thread intends it; what follows it goes on by itself. -/
def permits (intent : Intent Local Event) : CallKind -> Bool
  | .callLock => match intent with
      | .lock _ _ => true
      | _ => false
  | .callUnlock => match intent with
      | .unlock _ _ => true
      | _ => false
  | .goOn | .elsewhere => true
  | .excluded => false

/-- The thread is not inside a call of the lock. -/
def mayCompute (phase : Option CallPhase) : Bool :=
  phase = some .idle || phase = some .holding

/-- The thread and the event after a step of the lock that shows these moves. -/
def afterMoves (client : LockClient Tid Data Local Choice Event) (l : Local)
    (moves : List (LockMove Tid)) : Local × Option Event :=
  match client.intent l, moves with
  | .lock l' event, [.acquire _] => (l', some event)
  | .unlock l' event, [.release _] => (l', some event)
  | _, _ => (l, none)

/-- The client over a lock that is a program: a step of the lock, which the client
notices if it takes or releases the lock, or a step of the client. -/
def overLock (client : LockClient Tid Data Local Choice Event)
    (lock : LockProgram Tid Lock LockLocal LockAction LockEvent) :
    Program Tid (WithLock Lock Data) (LockLocal × Local) (LockAction ⊕ Choice) (Option Event) where
  step := fun t action shared l =>
    match action with
    | .inl action =>
        if permits (client.intent l.2) (lock.kind action) then
          (lock.program.step t action shared.lock l.1).map fun result =>
            let after := client.afterMoves l.2 (lock.observe (t, result.2.2))
            (⟨result.1, shared.data⟩, (result.2.1, after.1), after.2)
        else none
    | .inr choice =>
        match client.intent l.2, mayCompute (lock.phase l.1) with
        | .compute, true =>
            (client.compute t choice shared.data l.2).map fun result =>
              (⟨shared.lock, result.1⟩, (l.1, result.2.1), some result.2.2)
        | _, _ => none

/-- What the lock sees of a state. -/
def lockPart (s : Machine Tid (WithLock Lock Data) (LockLocal × Local)) :
    Machine Tid Lock LockLocal :=
  ⟨s.shared.lock, fun t => (s.thread t).1⟩

/-- The lock starts as it does, and the threads with what is given. -/
def startsOn (lock : LockProgram Tid Lock LockLocal LockAction LockEvent) (data : Data)
    (start : Tid -> Local) (s : Machine Tid (WithLock Lock Data) (LockLocal × Local)) : Prop :=
  lock.init (lockPart s) ∧ s.shared.data = data ∧ forall t, (s.thread t).2 = start t

/-- The steps that the client takes over the specification. -/
def seen : Tid × Option Event -> List (Tid × Event)
  | (t, some event) => [(t, event)]
  | (_, none) => []

/-! ## The refinement -/

/-- In a call of the lock the thread intends that call. -/
def Fits (intent : Intent Local Event) : CallPhase -> Prop
  | .locking => exists l event, intent = .lock l event
  | .unlocking => exists l event, intent = .unlock l event
  | .idle | .holding | .leaving => True

section refinement

variable {client : LockClient Tid Data Local Choice Event}
  {lock : LockProgram Tid Lock LockLocal LockAction LockEvent}

theorem lockPart_update (shared : WithLock Lock Data) (thread : Tid -> LockLocal × Local) (t : Tid)
    (l : LockLocal × Local) :
    lockPart ⟨shared, Function.update thread t l⟩ =
      ⟨shared.lock, Function.update (fun u => (thread u).1) t l.1⟩ := by
  simp only [lockPart, Machine.mk.injEq, true_and]
  exact Function.comp_update Prod.fst thread t l

/-- How a state over the specification explains a state over the lock. -/
structure Explains (client : LockClient Tid Data Local Choice Event)
    (lock : LockProgram Tid Lock LockLocal LockAction LockEvent)
    (a : Machine Tid (WithLock (Option Tid) Data) Local)
    (s : Machine Tid (WithLock Lock Data) (LockLocal × Local)) : Prop where
  holder : exists trace, lock.refines.rel trace a.shared.lock (lockPart s)
  data : a.shared.data = s.shared.data
  thread : forall t, a.thread t = (s.thread t).2
  phase : forall t, exists phase, lock.phase (s.thread t).1 = some phase ∧
    Fits (client.intent (s.thread t).2) phase

omit [DecidableEq Tid] in
/-- A step of the specification of which the client sees nothing. -/
theorem mutex_steps_unseen {t : Tid} {holder holder' : Option Tid} {moves : List (LockMove Tid)}
    (steps : (mutex Tid).Steps holder moves holder') (unseen : moves = [] ∨ moves = [.arrive t]) :
    holder' = holder := by
  rcases unseen with rfl | rfl
  · cases steps
    rfl
  · cases steps with
    | cons first rest =>
        cases rest
        exact first

variable {a : Machine Tid (WithLock (Option Tid) Data) Local}
  {s : Machine Tid (WithLock Lock Data) (LockLocal × Local)} {t : Tid}

/-- One thread moves on both sides. -/
theorem Explains.update (explains : Explains client lock a s) {shared : Lock} {data : Data}
    {inner : LockLocal} {l : Local} {holder : Option Tid} {trace : List (Tid × LockEvent)}
    (related : lock.refines.rel trace holder
      ⟨shared, Function.update (fun u => (s.thread u).1) t inner⟩)
    (phase : exists phase, lock.phase inner = some phase ∧ Fits (client.intent l) phase) :
    Explains client lock ⟨⟨holder, data⟩, Function.update a.thread t l⟩
      ⟨⟨shared, data⟩, Function.update s.thread t (inner, l)⟩ where
  holder := by
    refine ⟨trace, ?_⟩
    rw [lockPart_update]
    exact related
  data := rfl
  thread := by
    intro u
    show Function.update a.thread t l u = (Function.update s.thread t (inner, l) u).2
    by_cases same : u = t
    · rw [same, Function.update_self, Function.update_self]
    · rw [Function.update_of_ne same, Function.update_of_ne same]
      exact explains.thread u
  phase := (Function.forall_update_iff s.thread fun _ l => exists phase,
    lock.phase l.1 = some phase ∧ Fits (client.intent l.2) phase).mpr
      ⟨phase, fun u _ => explains.phase u⟩

omit [DecidableEq Tid] in
theorem afterMoves_quiet {l : Local} {moves : List (LockMove Tid)}
    (quiet : moves = [] ∨ moves = [.arrive t]) : client.afterMoves l moves = (l, none) := by
  unfold afterMoves
  rcases quiet with rfl | rfl <;> cases client.intent l <;> rfl

theorem lock_of_permits {intent : Intent Local Event} (permitted : permits intent .callLock = true) :
    exists l event, intent = .lock l event := by
  cases intent with
  | lock l event => exact ⟨l, event, rfl⟩
  | unlock | compute => cases permitted

theorem unlock_of_permits {intent : Intent Local Event}
    (permitted : permits intent .callUnlock = true) : exists l event, intent = .unlock l event := by
  cases intent with
  | unlock l event => exact ⟨l, event, rfl⟩
  | lock | compute => cases permitted

/-- A step of the lock is a step of the specification if it takes or releases the
lock, and otherwise none. -/
theorem Explains.lock_step [Nonempty Choice] (explains : Explains client lock a s)
    {init : Machine Tid (WithLock (Option Tid) Data) Local -> Prop} {action : LockAction}
    {shared : Lock} {l : LockLocal} {event : LockEvent}
    (permitted : permits (client.intent (s.thread t).2) (lock.kind action) = true)
    (stepped : lock.program.step t action s.shared.lock (s.thread t).1 = some (shared, l, event)) :
    exists a', (client.overMutex.system init).Steps a
        (seen (t, (client.afterMoves (s.thread t).2 (lock.observe (t, event))).2)) a' ∧
      Explains client lock a' ⟨⟨shared, s.shared.data⟩, Function.update s.thread t
        (l, (client.afterMoves (s.thread t).2 (lock.observe (t, event))).1)⟩ := by
  rcases explains.holder with ⟨trace, related⟩
  rcases explains.phase t with ⟨phase, atPhase, fits⟩
  have moved : (lock.program.system lock.init).next (lockPart s) (t, event)
      ⟨shared, Function.update (lockPart s).thread t l⟩ :=
    ⟨action, by simp only [Program.next, lockPart, stepped, Option.map_some]⟩
  rcases lock.refines.step trace _ _ _ _ related moved trivial with ⟨holder, steps, related'⟩
  have included : lock.kind action ≠ .excluded := by
    intro excluded
    rw [excluded] at permitted
    cases permitted
  rcases lock.lawful _ _ _ _ _ _ _ _ stepped included atPhase with ⟨phase', atPhase', visible⟩
  generalize lock.observe (t, event) = moves at steps visible
  generalize lock.kind action = kind at permitted visible
  have here := explains.thread t
  rcases ‹Nonempty Choice› with ⟨choice⟩
  -- A step that the client does not see.
  have unseen : moves = [] ∨ moves = [.arrive t] -> Fits (client.intent (s.thread t).2) phase' ->
      exists a', (client.overMutex.system init).Steps a
          (seen (t, (client.afterMoves (s.thread t).2 moves).2)) a' ∧
        Explains client lock a' ⟨⟨shared, s.shared.data⟩, Function.update s.thread t
          (l, (client.afterMoves (s.thread t).2 moves).1)⟩ := by
    intro quiet still
    rw [afterMoves_quiet quiet]
    have same := mutex_steps_unseen steps quiet
    have explains' : Explains client lock _ ⟨⟨shared, s.shared.data⟩,
        Function.update s.thread t (l, (s.thread t).2)⟩ :=
      explains.update related' ⟨phase', atPhase', still⟩
    rw [same, ← explains.data, ← here, Function.update_eq_self] at explains'
    exact ⟨a, .refl a, by rw [← explains.data, ← here]; exact explains'⟩
  cases visible with
  | elsewhere => exact unseen (Or.inl rfl) trivial
  | callsLock => exact unseen (Or.inl rfl) (lock_of_permits permitted)
  | waits arrives => exact unseen arrives fits
  | callsUnlock => exact unseen (Or.inl rfl) (unlock_of_permits permitted)
  | unlocks => exact unseen (Or.inl rfl) fits
  | leaves left =>
      refine unseen (Or.inl rfl) ?_
      rcases left with rfl | rfl <;> trivial
  | acquires =>
      rcases fits with ⟨l', event', intends⟩
      rcases steps.of_single with ⟨free, rfl⟩
      have after : client.afterMoves (s.thread t).2 [.acquire t] = (l', some event') := by
        simp only [afterMoves, intends]
      have taken : client.overMutex.next a t choice =
          some (⟨⟨some t, s.shared.data⟩, Function.update a.thread t l'⟩, event') := by
        simp only [Program.next, overMutex, here, intends, if_pos free, Option.map_some,
          explains.data]
      rw [after]
      exact ⟨_, .single ⟨choice, taken⟩, explains.update related' ⟨_, atPhase', trivial⟩⟩
  | releases left =>
      rcases fits with ⟨l', event', intends⟩
      rcases steps.of_single with ⟨_, rfl⟩
      have after : client.afterMoves (s.thread t).2 [.release t] = (l', some event') := by
        simp only [afterMoves, intends]
      have given : client.overMutex.next a t choice =
          some (⟨⟨none, s.shared.data⟩, Function.update a.thread t l'⟩, event') := by
        simp only [Program.next, overMutex, here, intends, Option.map_some, explains.data]
      have gone : Fits (client.intent l') phase' := by
        rcases left with rfl | rfl <;> trivial
      rw [after]
      exact ⟨_, .single ⟨choice, given⟩, explains.update related' ⟨_, atPhase', gone⟩⟩

/-- A step of the client is the same over the specification. -/
theorem Explains.compute_step (explains : Explains client lock a s)
    {init : Machine Tid (WithLock (Option Tid) Data) Local -> Prop} {choice : Choice} {data : Data}
    {l : Local} {event : Event} (intends : client.intent (s.thread t).2 = .compute)
    (may : mayCompute (lock.phase (s.thread t).1) = true)
    (stepped : client.compute t choice s.shared.data (s.thread t).2 = some (data, l, event)) :
    exists a', (client.overMutex.system init).Steps a [(t, event)] a' ∧
      Explains client lock a' ⟨⟨s.shared.lock, data⟩,
        Function.update s.thread t ((s.thread t).1, l)⟩ := by
  rcases explains.holder with ⟨trace, related⟩
  have computed : client.overMutex.next a t choice =
      some (⟨⟨a.shared.lock, data⟩, Function.update a.thread t l⟩, event) := by
    simp only [Program.next, overMutex, explains.thread t, intends, explains.data, stepped,
      Option.map_some]
  have phase : exists phase, lock.phase (s.thread t).1 = some phase ∧
      Fits (client.intent l) phase := by
    rw [mayCompute, Bool.or_eq_true, decide_eq_true_iff, decide_eq_true_iff] at may
    rcases may with idle | holding
    · exact ⟨_, idle, trivial⟩
    · exact ⟨_, holding, trivial⟩
  have same : lock.refines.rel trace a.shared.lock
      ⟨s.shared.lock, Function.update (fun u => (s.thread u).1) t (s.thread t).1⟩ := by
    rw [Function.update_eq_self]
    exact related
  exact ⟨_, .single ⟨choice, computed⟩, explains.update same phase⟩

end refinement

/-- Whatever a client does over a lock that provides mutual exclusion it does
over the specification of mutual exclusion. -/
def overLock_refines [Nonempty Choice] (client : LockClient Tid Data Local Choice Event)
    (lock : LockProgram Tid Lock LockLocal LockAction LockEvent) (data : Data)
    (start : Tid -> Local) :
    ((client.overLock lock).system (startsOn lock data start)).Simulation
      TransitionSystem.unguarded (client.overMutex.system (startsOver data start)) seen where
  rel := fun _ a s => Explains client lock a s
  start := by
    rintro s ⟨lockStarts, data, threads⟩
    rcases lock.refines.start _ lockStarts with ⟨holder, free, related⟩
    rcases (free : holder = none) with rfl
    refine ⟨_, rfl, ⟨[], related⟩, data.symm, fun t => (threads t).symm, fun t => ?_⟩
    exact ⟨.idle, lock.idle _ lockStarts t, trivial⟩
  step := by
    rintro _ a s ⟨t, event⟩ s' explains moved _
    rcases Program.system_next moved with ⟨action, shared, l, stepped, rfl⟩
    cases action with
    | inl action =>
        simp only [overLock] at stepped
        split at stepped
        · next permitted =>
            rcases Option.map_eq_some_iff.mp stepped with ⟨⟨shared', l', lockEvent⟩, inner, result⟩
            simp only [Prod.mk.injEq] at result
            rcases result with ⟨rfl, rfl, rfl⟩
            exact explains.lock_step permitted inner
        · cases stepped
    | inr choice =>
        simp only [overLock] at stepped
        split at stepped
        · next intends may =>
            rcases Option.map_eq_some_iff.mp stepped with ⟨⟨data', l', clientEvent⟩, inner, result⟩
            simp only [Prod.mk.injEq] at result
            rcases result with ⟨rfl, rfl, rfl⟩
            exact explains.compute_step intends may inner
        · cases stepped

/-! ## Where a thread is when it uses the lock -/

/-- Where a thread calls the lock, and where it holds it, it is inside. -/
structure Covers (client : LockClient Tid Data Local Choice Event) (holds inside : Local -> Prop) :
    Prop where
  lock : forall l l' event, client.intent l = .lock l' event -> inside l ∧ inside l'
  unlock : forall l l' event, client.intent l = .unlock l' event -> inside l ∧ inside l'
  compute : forall t choice data l data' l' event, client.intent l = .compute ->
    client.compute t choice data l = some (data', l', event) -> holds l -> inside l'

/-- The place of a thread in each phase of a call. -/
def Matches (intent : Local -> Intent Local Event) (holds inside : Local -> Prop) (l : Local) :
    CallPhase -> Prop
  | .idle => ¬holds l
  | .locking => exists l' event, intent l = .lock l' event
  | .holding => holds l ∧ inside l
  | .unlocking => exists l' event, intent l = .unlock l' event
  | .leaving => ¬holds l ∧ inside l

section phases

variable {client : LockClient Tid Data Local Choice Event}
  {lock : LockProgram Tid Lock LockLocal LockAction LockEvent} {holds inside : Local -> Prop}
  {t : Tid} {l : Local}

omit [DecidableEq Tid] in
theorem PhaseStep.matches (brackets : client.Brackets holds) (covers : client.Covers holds inside)
    {kind : CallKind} {phase phase' : CallPhase} {moves : List (LockMove Tid)}
    (visible : PhaseStep t kind phase phase' moves)
    (permitted : permits (client.intent l) kind = true)
    (here : Matches client.intent holds inside l phase) :
    Matches client.intent holds inside (client.afterMoves l moves).1 phase' := by
  cases visible with
  | elsewhere => rwa [afterMoves_quiet (t := t) (Or.inl rfl)]
  | callsLock =>
      rw [afterMoves_quiet (t := t) (Or.inl rfl)]
      exact lock_of_permits permitted
  | waits arrives => rwa [afterMoves_quiet arrives]
  | acquires =>
      rcases here with ⟨l', event, intends⟩
      simp only [afterMoves, intends]
      exact ⟨(brackets.lock _ _ _ intends).2, (covers.lock _ _ _ intends).2⟩
  | callsUnlock =>
      rw [afterMoves_quiet (t := t) (Or.inl rfl)]
      exact unlock_of_permits permitted
  | unlocks => rwa [afterMoves_quiet (t := t) (Or.inl rfl)]
  | releases left =>
      rcases here with ⟨l', event, intends⟩
      simp only [afterMoves, intends]
      have free := (brackets.unlock _ _ _ intends).2
      rcases left with rfl | rfl
      · exact ⟨free, (covers.unlock _ _ _ intends).2⟩
      · exact free
  | leaves left =>
      rw [afterMoves_quiet (t := t) (Or.inl rfl)]
      rcases left with rfl | rfl
      · exact here
      · exact here.1

theorem matches_of_run (brackets : client.Brackets holds) (covers : client.Covers holds inside)
    {data : Data} {start : Tid -> Local} (outside : forall t, ¬holds (start t))
    {trace : List (Tid × Option Event)}
    {s : Machine Tid (WithLock Lock Data) (LockLocal × Local)}
    (run : ((client.overLock lock).system (startsOn lock data start)).Run
      TransitionSystem.unguarded trace s) (t : Tid) :
    exists phase, lock.phase (s.thread t).1 = some phase ∧
      Matches client.intent holds inside (s.thread t).2 phase := by
  refine run.invariant (fun _ s => forall t, exists phase, lock.phase (s.thread t).1 = some phase ∧
    Matches client.intent holds inside (s.thread t).2 phase) ?_ ?_ t
  · rintro s ⟨lockStarts, -, threads⟩ t
    refine ⟨.idle, lock.idle _ lockStarts t, ?_⟩
    rw [threads]
    exact outside t
  · rintro _ s ⟨t, event⟩ s' places moved _
    rcases Program.system_next moved with ⟨action, shared, ⟨inner, l⟩, stepped, rfl⟩
    refine (Function.forall_update_iff s.thread fun _ l => exists phase,
      lock.phase l.1 = some phase ∧ Matches client.intent holds inside l.2 phase).mpr
        ⟨?_, fun u _ => places u⟩
    rcases places t with ⟨phase, atPhase, here⟩
    cases action with
    | inl action =>
        simp only [overLock] at stepped
        split at stepped
        · next permitted =>
            rcases Option.map_eq_some_iff.mp stepped with ⟨⟨shared', l', lockEvent⟩, took, result⟩
            simp only [Prod.mk.injEq] at result
            rcases result with ⟨rfl, ⟨rfl, rfl⟩, rfl⟩
            have included : lock.kind action ≠ .excluded := by
              intro excluded
              rw [excluded] at permitted
              cases permitted
            rcases lock.lawful _ _ _ _ _ _ _ _ took included atPhase with
              ⟨phase', atPhase', visible⟩
            exact ⟨phase', atPhase', PhaseStep.matches brackets covers visible permitted here⟩
        · cases stepped
    | inr choice =>
        simp only [overLock] at stepped
        split at stepped
        · next intends may =>
            rcases Option.map_eq_some_iff.mp stepped with ⟨⟨data', l', clientEvent⟩, took, result⟩
            simp only [Prod.mk.injEq] at result
            rcases result with ⟨rfl, ⟨rfl, rfl⟩, rfl⟩
            have still := brackets.compute _ _ _ _ _ _ _ intends took
            rw [mayCompute, Bool.or_eq_true, decide_eq_true_iff, decide_eq_true_iff, atPhase,
              Option.some.injEq, Option.some.injEq] at may
            refine ⟨phase, atPhase, ?_⟩
            rcases may with rfl | rfl
            · exact mt still.mp here
            · exact ⟨still.mpr here.1, covers.compute _ _ _ _ _ _ _ intends took here.1⟩
        · cases stepped

omit [DecidableEq Tid] in
/-- A thread that is in a call of the lock, or holds it, is inside. -/
theorem Matches.within {phase : CallPhase} (covers : client.Covers holds inside)
    (here : Matches client.intent holds inside l phase) (busy : phase ≠ .idle) : inside l := by
  cases phase with
  | idle => exact absurd rfl busy
  | locking =>
      rcases here with ⟨l', event, intends⟩
      exact (covers.lock _ _ _ intends).1
  | unlocking =>
      rcases here with ⟨l', event, intends⟩
      exact (covers.unlock _ _ _ intends).1
  | holding | leaving => exact here.2

end phases

end LockClient

end Concurrency
end Autolock
