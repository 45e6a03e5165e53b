import Autolock.Concurrency.TransitionSystem
import Mathlib.Logic.Function.Basic

namespace Autolock
namespace Concurrency

/-!
# Threads over a shared memory, interleaved step by step

A program says what one atomic step of one thread does: it reads and writes
the shared state and the thread's own state, and reports an event.  An action
carries what the program does not decide itself (which function the client
calls, which address the allocator returns, whether a weak compare-exchange
fails).  The machine lets any thread take any enabled step at any time, which
is sequential consistency.

`ThreadInvariant` is the proof rule used for every lock: a global relation
between ghost state and shared state, a local assertion for every thread, and
for each step the obligation that the stepping thread reestablishes both
while every other thread's assertion survives the change of ghost state.
-/

universe u

/-- What one thread does in one atomic step; `none` when the step is not enabled. -/
structure Program (Tid Shared Local Action Event : Type u) where
  step : Tid -> Action -> Shared -> Local -> Option (Shared × Local × Event)

/-- The shared state together with the private state of every thread. -/
structure Machine (Tid Shared Local : Type u) where
  shared : Shared
  thread : Tid -> Local

variable {Tid Shared Local Action Event : Type u} [DecidableEq Tid]

namespace Program

/-- Let one thread take one step. -/
def next (program : Program Tid Shared Local Action Event) (s : Machine Tid Shared Local)
    (t : Tid) (action : Action) : Option (Machine Tid Shared Local × Event) :=
  (program.step t action s.shared (s.thread t)).map fun result =>
    (⟨result.1, Function.update s.thread t result.2.1⟩, result.2.2)

/-- The interleavings of a program, from the given initial machines. -/
def system (program : Program Tid Shared Local Action Event)
    (init : Machine Tid Shared Local -> Prop) :
    TransitionSystem (Machine Tid Shared Local) (Tid × Event) where
  init := init
  next := fun s label s' => exists action, program.next s label.1 action = some (s', label.2)

theorem system_next {program : Program Tid Shared Local Action Event}
    {init : Machine Tid Shared Local -> Prop} {s s' : Machine Tid Shared Local}
    {label : Tid × Event} (moved : (program.system init).next s label s') :
    exists action shared' local',
      program.step label.1 action s.shared (s.thread label.1) =
          some (shared', local', label.2) ∧
        s' = ⟨shared', Function.update s.thread label.1 local'⟩ := by
  rcases moved with ⟨action, enabled⟩
  rcases Option.map_eq_some_iff.mp enabled with ⟨⟨shared', local', event⟩, stepped, result⟩
  rcases Prod.mk.inj result with ⟨rfl, rfl⟩
  exact ⟨action, shared', local', stepped, rfl⟩

/-- Play a schedule, a list of threads with their actions, from a machine. -/
def exec (program : Program Tid Shared Local Action Event) :
    List (Tid × Action) -> Machine Tid Shared Local ->
      Option (Machine Tid Shared Local × List (Tid × Event))
  | [], s => some (s, [])
  | (t, action) :: schedule, s => do
      let (s', event) <- program.next s t action
      let (s'', labels) <- exec program schedule s'
      pure (s'', (t, event) :: labels)

/-- A schedule that plays to its end is a sequence of steps of the system. -/
theorem exec_steps {program : Program Tid Shared Local Action Event}
    {init : Machine Tid Shared Local -> Prop} {schedule : List (Tid × Action)}
    {s s' : Machine Tid Shared Local} {labels : List (Tid × Event)}
    (played : program.exec schedule s = some (s', labels)) :
    (program.system init).Steps s labels s' := by
  induction schedule generalizing s labels with
  | nil =>
      rcases Prod.mk.inj (Option.some.inj played) with ⟨rfl, rfl⟩
      exact .refl s
  | cons head schedule inductionHypothesis =>
      rcases head with ⟨t, action⟩
      simp only [exec, Option.bind_eq_bind, Option.bind_eq_some_iff, Option.pure_def,
        Option.some.injEq, Prod.mk.injEq] at played
      rcases played with ⟨⟨middle, event⟩, first, ⟨last, rest⟩, played, rfl, rfl⟩
      exact .cons ⟨action, first⟩ (inductionHypothesis played)

/-- One thread takes steps while the others stay where they are. -/
inductive Solo (program : Program Tid Shared Local Action Event) (t : Tid) :
    Shared -> Local -> List Event -> Shared -> Local -> Prop
  | refl (shared : Shared) (l : Local) : Solo program t shared l [] shared l
  | cons (action : Action) {shared shared' shared'' : Shared} {l l' l'' : Local} {event : Event}
      {events : List Event} (first : program.step t action shared l = some (shared', l', event))
      (rest : Solo program t shared' l' events shared'' l'') :
      Solo program t shared l (event :: events) shared'' l''

omit [DecidableEq Tid] in
theorem Solo.append {program : Program Tid Shared Local Action Event} {t : Tid}
    {shared shared' shared'' : Shared} {l l' l'' : Local} {events events' : List Event}
    (first : program.Solo t shared l events shared' l')
    (second : program.Solo t shared' l' events' shared'' l'') :
    program.Solo t shared l (events ++ events') shared'' l'' := by
  induction first with
  | refl shared l => exact second
  | cons action step _ inductionHypothesis => exact .cons action step (inductionHypothesis second)

/-- What a thread does alone is a sequence of steps of the system. -/
theorem Solo.steps {program : Program Tid Shared Local Action Event}
    {init : Machine Tid Shared Local -> Prop} {t : Tid} {shared shared' : Shared} {l l' : Local}
    {events : List Event} (solo : program.Solo t shared l events shared' l') (thread : Tid -> Local)
    (here : thread t = l) :
    (program.system init).Steps ⟨shared, thread⟩ (events.map fun event => (t, event))
      ⟨shared', Function.update thread t l'⟩ := by
  induction solo generalizing thread with
  | refl shared l =>
      rw [← here, Function.update_eq_self]
      exact .refl _
  | @cons action shared shared₁ shared' l l₁ l' event events first _ inductionHypothesis =>
      have enabled : program.next ⟨shared, thread⟩ t action =
          some (⟨shared₁, Function.update thread t l₁⟩, event) := by
        simp only [next, here, first, Option.map_some]
      have rest := inductionHypothesis (Function.update thread t l₁) (Function.update_self ..)
      rw [Function.update_idem] at rest
      exact .cons ⟨action, enabled⟩ rest

/-- A run goes on with what one thread does alone. -/
theorem Solo.run {program : Program Tid Shared Local Action Event}
    {init : Machine Tid Shared Local -> Prop} {t : Tid} {shared shared' : Shared} {l l' : Local}
    {events : List Event} (solo : program.Solo t shared l events shared' l') {thread : Tid -> Local}
    (here : thread t = l) {trace : List (Tid × Event)}
    (run : (program.system init).Run TransitionSystem.unguarded trace ⟨shared, thread⟩) :
    (program.system init).Run TransitionSystem.unguarded
      (trace ++ events.map fun event => (t, event)) ⟨shared', Function.update thread t l'⟩ :=
  run.append (solo.steps thread here)

/-- A thread that ends where it began leaves the threads as they were. -/
theorem Solo.run_back {program : Program Tid Shared Local Action Event}
    {init : Machine Tid Shared Local -> Prop} {t : Tid} {shared shared' : Shared} {l : Local}
    {events : List Event} (solo : program.Solo t shared l events shared' l) {thread : Tid -> Local}
    (here : thread t = l) {trace : List (Tid × Event)}
    (run : (program.system init).Run TransitionSystem.unguarded trace ⟨shared, thread⟩) :
    (program.system init).Run TransitionSystem.unguarded
      (trace ++ events.map fun event => (t, event)) ⟨shared', thread⟩ := by
  have ends := solo.run here run
  rwa [← here, Function.update_eq_self] at ends

/-- The machine and the labels that a schedule leads to; the start if it cannot be played. -/
def play (program : Program Tid Shared Local Action Event) (schedule : List (Tid × Action))
    (s : Machine Tid Shared Local) : Machine Tid Shared Local × List (Tid × Event) :=
  (program.exec schedule s).getD (s, [])

/-- A schedule that can be played from an initial machine gives a run. -/
theorem run_play {program : Program Tid Shared Local Action Event}
    {init : Machine Tid Shared Local -> Prop} {s : Machine Tid Shared Local} (initial : init s)
    (schedule : List (Tid × Action)) (plays : (program.exec schedule s).isSome = true) :
    (program.system init).Run TransitionSystem.unguarded
      (program.play schedule s).2 (program.play schedule s).1 := by
  rcases Option.isSome_iff_exists.mp plays with ⟨result, played⟩
  have steps : (program.system init).Steps s result.2 result.1 := exec_steps played
  simpa only [play, played, Option.getD_some, List.nil_append] using
    (TransitionSystem.Run.start initial).append steps

/-- Every step of the schedule is enabled and passes a check. -/
def allSteps (program : Program Tid Shared Local Action Event)
    (check : Machine Tid Shared Local -> Tid × Event -> Machine Tid Shared Local -> Bool) :
    List (Tid × Action) -> Machine Tid Shared Local -> Bool
  | [], _ => true
  | (t, action) :: schedule, s =>
      match program.next s t action with
      | none => false
      | some (s', event) => check s (t, event) s' && allSteps program check schedule s'

/-- A schedule whose steps pass a check that implies the guard extends a guarded run. -/
theorem run_exec_checked {program : Program Tid Shared Local Action Event}
    {init : Machine Tid Shared Local -> Prop}
    {guard : TransitionSystem.Guard (Machine Tid Shared Local) (Tid × Event)}
    {check : Machine Tid Shared Local -> Tid × Event -> Machine Tid Shared Local -> Bool}
    (sound : forall trace s label s', check s label s' = true -> guard trace s label s')
    {schedule : List (Tid × Action)} {trace : List (Tid × Event)} {s : Machine Tid Shared Local}
    (run : (program.system init).Run guard trace s)
    (checked : program.allSteps check schedule s = true) :
    exists s' labels, program.exec schedule s = some (s', labels) ∧
      (program.system init).Run guard (trace ++ labels) s' := by
  induction schedule generalizing trace s with
  | nil => exact ⟨s, [], rfl, by simpa using run⟩
  | cons head schedule inductionHypothesis =>
      rcases head with ⟨t, action⟩
      simp only [allSteps] at checked
      split at checked
      · cases checked
      · next middle event enabled =>
          rw [Bool.and_eq_true] at checked
          have moved : (program.system init).next s (t, event) middle := ⟨action, enabled⟩
          have run' := run.step moved (sound _ _ _ _ checked.1)
          rcases inductionHypothesis run' checked.2 with ⟨s', labels, played, rest⟩
          refine ⟨s', (t, event) :: labels, ?_, ?_⟩
          · simp [exec, enabled, played]
          · simpa only [List.append_assoc, List.singleton_append] using rest

/-- A schedule whose steps pass a check that implies the guard gives a guarded run. -/
theorem run_play_checked {program : Program Tid Shared Local Action Event}
    {init : Machine Tid Shared Local -> Prop}
    {guard : TransitionSystem.Guard (Machine Tid Shared Local) (Tid × Event)}
    {check : Machine Tid Shared Local -> Tid × Event -> Machine Tid Shared Local -> Bool}
    (sound : forall trace s label s', check s label s' = true -> guard trace s label s')
    {s : Machine Tid Shared Local} (initial : init s) (schedule : List (Tid × Action))
    (checked : program.allSteps check schedule s = true) :
    (program.system init).Run guard (program.play schedule s).2 (program.play schedule s).1 := by
  rcases run_exec_checked sound (.start initial) checked with ⟨s', labels, played, run⟩
  simpa only [play, played, Option.getD_some, List.nil_append] using run

/-- A guard that can be decided is its own check. -/
theorem run_play_decided {program : Program Tid Shared Local Action Event}
    {init : Machine Tid Shared Local -> Prop}
    {condition : Machine Tid Shared Local -> Tid × Event -> Machine Tid Shared Local -> Prop}
    [forall s label s', Decidable (condition s label s')]
    {s : Machine Tid Shared Local} (initial : init s) (schedule : List (Tid × Action))
    (checked : program.allSteps (fun s label s' => decide (condition s label s')) schedule s = true) :
    (program.system init).Run (fun _ => condition)
      (program.play schedule s).2 (program.play schedule s).1 :=
  run_play_checked (fun _ _ _ _ => of_decide_eq_true) initial schedule checked

end Program

/-- A program whose threads can take further steps. -/
def Program.extend {Extra : Type u} (program : Program Tid Shared Local Action Event)
    (extra : Tid -> Extra -> Shared -> Local -> Option (Shared × Local × Event)) :
    Program Tid Shared Local (Action ⊕ Extra) Event where
  step := fun t action shared l =>
    match action with
    | .inl action => program.step t action shared l
    | .inr more => extra t more shared l

/-! ## Steps that tell more -/

/-- All that a thread has seen of one of its steps. -/
structure StepRecord (Local Action Event : Type u) where
  before : Local
  action : Action
  after : Local
  event : Event

namespace Program

omit [DecidableEq Tid] in
/-- The program with records for events, for properties and guards that speak
about the action of a step or about the place at which it was taken. -/
def recorded (program : Program Tid Shared Local Action Event) :
    Program Tid Shared Local Action (StepRecord Local Action Event) where
  step := fun t action shared l =>
    (program.step t action shared l).map fun result =>
      (result.1, result.2.1, ⟨l, action, result.2.1, result.2.2⟩)

/-- What a step of the recorded program says about the step of the program. -/
theorem recorded_next {program : Program Tid Shared Local Action Event}
    {init : Machine Tid Shared Local -> Prop} {s s' : Machine Tid Shared Local}
    {label : Tid × StepRecord Local Action Event}
    (moved : (program.recorded.system init).next s label s') :
    exists shared',
      program.step label.1 label.2.action s.shared (s.thread label.1) =
          some (shared', label.2.after, label.2.event) ∧
        label.2.before = s.thread label.1 ∧
        s' = ⟨shared', Function.update s.thread label.1 label.2.after⟩ := by
  rcases label with ⟨t, record⟩
  rcases system_next moved with ⟨action, shared', local', stepped, rfl⟩
  rcases Option.map_eq_some_iff.mp stepped with ⟨result, enabled, rebuilt⟩
  simp only [Prod.mk.injEq] at rebuilt
  rcases rebuilt with ⟨rfl, rfl, rfl⟩
  exact ⟨_, enabled, rfl, rfl⟩

/-- Every run of the program can be recorded. -/
theorem run_recorded {program : Program Tid Shared Local Action Event}
    {init : Machine Tid Shared Local -> Prop} {trace : List (Tid × Event)}
    {s : Machine Tid Shared Local}
    (run : (program.system init).Run TransitionSystem.unguarded trace s) :
    exists records, (program.recorded.system init).Run TransitionSystem.unguarded records s := by
  induction run with
  | start initial => exact ⟨[], .start initial⟩
  | @step _ s label _ _ moved _ inductionHypothesis =>
      rcases inductionHypothesis with ⟨records, run⟩
      rcases system_next moved with ⟨action, shared', local', stepped, rfl⟩
      have recorded : (program.recorded.system init).next s
          (label.1, ⟨s.thread label.1, action, local', label.2⟩)
          ⟨shared', Function.update s.thread label.1 local'⟩ := by
        refine ⟨action, ?_⟩
        simp only [next, Program.recorded, stepped, Option.map_some]
      exact ⟨_, run.step recorded trivial⟩

/-- What is left of a label when the record is forgotten. -/
def unrecord (label : Tid × StepRecord Local Action Event) : Tid × Event :=
  (label.1, label.2.event)

/-- The guard of a program, for its recorded runs. -/
def onRecords (guard : TransitionSystem.Guard (Machine Tid Shared Local) (Tid × Event)) :
    TransitionSystem.Guard (Machine Tid Shared Local) (Tid × StepRecord Local Action Event) :=
  fun records s label s' => guard (records.map unrecord) s (unrecord label) s'

/-- A recorded run is a run. -/
theorem run_unrecord {program : Program Tid Shared Local Action Event}
    {init : Machine Tid Shared Local -> Prop}
    {guard : TransitionSystem.Guard (Machine Tid Shared Local) (Tid × Event)}
    {records : List (Tid × StepRecord Local Action Event)} {s : Machine Tid Shared Local}
    (run : (program.recorded.system init).Run (onRecords guard) records s) :
    (program.system init).Run guard (records.map unrecord) s := by
  induction run with
  | start initial => exact .start initial
  | @step _ _ label _ _ moved allowed inductionHypothesis =>
      rcases recorded_next moved with ⟨shared', stepped, _, rfl⟩
      rw [List.map_append, List.map_singleton]
      refine inductionHypothesis.step ⟨label.2.action, ?_⟩ allowed
      simp only [next, unrecord, stepped, Option.map_some]

end Program

/-! ## The thread-modular proof rule -/

/-- Ghost state, a global relation and local assertions that justify a
simulation of the interleavings of `program` by `spec`. -/
structure ThreadInvariant {Abstract Move Ghost : Type u}
    (program : Program Tid Shared Local Action Event)
    (init : Machine Tid Shared Local -> Prop)
    (guard : TransitionSystem.Guard (Machine Tid Shared Local) (Tid × Event))
    (spec : TransitionSystem Abstract Move) (observe : Tid × Event -> List Move)
    (project : Ghost -> Abstract) where
  glob : List (Tid × Event) -> Ghost -> Shared -> Prop
  loc : Ghost -> Tid -> Local -> Prop
  start : forall s, init s ->
    exists g, spec.init (project g) ∧ glob [] g s.shared ∧ forall t, loc g t (s.thread t)
  step : forall trace g (s : Machine Tid Shared Local) t action shared' local' event,
    glob trace g s.shared -> (forall u, loc g u (s.thread u)) ->
    program.step t action s.shared (s.thread t) = some (shared', local', event) ->
    guard trace s (t, event) ⟨shared', Function.update s.thread t local'⟩ ->
    exists g', spec.Steps (project g) (observe (t, event)) (project g') ∧
      glob (trace ++ [(t, event)]) g' shared' ∧ loc g' t local' ∧
      forall u, u ≠ t -> loc g u (s.thread u) -> loc g' u (s.thread u)

namespace ThreadInvariant

variable {Abstract Move Ghost : Type u}
  {program : Program Tid Shared Local Action Event}
  {init : Machine Tid Shared Local -> Prop}
  {guard : TransitionSystem.Guard (Machine Tid Shared Local) (Tid × Event)}
  {spec : TransitionSystem Abstract Move} {observe : Tid × Event -> List Move}
  {project : Ghost -> Abstract}

/-- The simulation that a thread invariant justifies. -/
def simulation (invariant : ThreadInvariant program init guard spec observe project) :
    (program.system init).Simulation guard spec observe where
  rel := fun trace a s => exists g, project g = a ∧ invariant.glob trace g s.shared ∧
    forall t, invariant.loc g t (s.thread t)
  start := by
    intro s initial
    rcases invariant.start s initial with ⟨g, specInitial, global, locals⟩
    exact ⟨project g, specInitial, g, rfl, global, locals⟩
  step := by
    intro trace a s label s' related moved allowed
    rcases related with ⟨g, rfl, global, locals⟩
    rcases Program.system_next moved with ⟨action, shared', local', stepped, rfl⟩
    obtain ⟨g', steps, global', own, others⟩ :=
      invariant.step trace g s label.1 action shared' local' label.2 global locals stepped allowed
    refine ⟨project g', steps, g', rfl, global', ?_⟩
    intro u
    by_cases same : u = label.1
    · subst same
      simpa only [Function.update_self] using own
    · simpa only [Function.update_of_ne same] using others u same (locals u)

/-- After every guarded run some ghost state satisfies the global relation and
every local assertion, and the specification has a run with the observed moves
that ends in its projection. -/
theorem run (invariant : ThreadInvariant program init guard spec observe project)
    {trace : List (Tid × Event)} {s : Machine Tid Shared Local}
    (run : (program.system init).Run guard trace s) :
    exists g, spec.Run TransitionSystem.unguarded (trace.flatMap observe) (project g) ∧
      invariant.glob trace g s.shared ∧ forall t, invariant.loc g t (s.thread t) := by
  rcases invariant.simulation.run run with ⟨a, specRun, g, rfl, global, locals⟩
  exact ⟨g, specRun, global, locals⟩

end ThreadInvariant

end Concurrency
end Autolock
