import Mathlib.Data.List.Basic

namespace Autolock
namespace Concurrency

universe u v w x y z

/-!
# Labelled transition systems, guarded runs and forward simulations

A run records the labels of its steps in order, so that an order property
("threads acquire in the order in which they arrived") is a statement about
lists of labels.  A guard restricts the steps that a run may take.  It sees
the labels so far and both states of the step, so that it expresses a bound on
every state reached as well as a bound on what happens during one call.

Nothing in this module mentions a lock.
-/

/-- What begins a list of labels that has grown by one is the whole list or has begun it before. -/
theorem begins_concat {Label : Type v} {before trace : List Label} {label last : Label}
    (begins : before ++ [label] <+: trace ++ [last]) :
    before = trace ∧ label = last ∨ before ++ [label] <+: trace := by
  rcases List.prefix_concat_iff.mp begins with whole | earlier
  · rcases List.append_inj' whole rfl with ⟨rfl, same⟩
    exact Or.inl ⟨rfl, List.singleton_inj.mp same⟩
  · exact Or.inr earlier

theorem not_begins_nil {Label : Type v} {before : List Label} {label : Label} :
    ¬before ++ [label] <+: [] :=
  fun begins => List.concat_ne_nil label before (List.prefix_nil.mp begins)

/-- States, labels, the states a run may start in, and the steps. -/
structure TransitionSystem (State : Type u) (Label : Type v) where
  init : State -> Prop
  next : State -> Label -> State -> Prop

namespace TransitionSystem

variable {State : Type u} {Label : Type v}

/-- A condition on one step, given the labels of the steps before it. -/
abbrev Guard (State : Type u) (Label : Type v) :=
  List Label -> State -> Label -> State -> Prop

/-- The guard that admits every step. -/
def unguarded : Guard State Label := fun _ _ _ _ => True

/-- `Run guard trace s`: some run whose steps all satisfy the guard has the
labels `trace` and ends in `s`. -/
inductive Run (system : TransitionSystem State Label) (guard : Guard State Label) :
    List Label -> State -> Prop
  | start {s : State} (initial : system.init s) : Run system guard [] s
  | step {trace : List Label} {s : State} {label : Label} {s' : State}
      (run : Run system guard trace s) (moved : system.next s label s')
      (allowed : guard trace s label s') : Run system guard (trace ++ [label]) s'

/-- A finite sequence of steps from one state to another. -/
inductive Steps (system : TransitionSystem State Label) : State -> List Label -> State -> Prop
  | refl (s : State) : Steps system s [] s
  | cons {s s' s'' : State} {label : Label} {labels : List Label}
      (first : system.next s label s') (rest : Steps system s' labels s'') :
      Steps system s (label :: labels) s''

variable {system : TransitionSystem State Label} {guard : Guard State Label}

theorem Steps.single {s s' : State} {label : Label} (first : system.next s label s') :
    system.Steps s [label] s' :=
  .cons first (.refl s')

theorem Steps.of_single {s s' : State} {label : Label} (steps : system.Steps s [label] s') :
    system.next s label s' := by
  cases steps with
  | cons first rest =>
      cases rest
      exact first

theorem Steps.append {s s' s'' : State} {labels labels' : List Label}
    (steps : system.Steps s labels s') (rest : system.Steps s' labels' s'') :
    system.Steps s (labels ++ labels') s'' := by
  induction steps with
  | refl s => exact rest
  | cons first _ inductionHypothesis => exact .cons first (inductionHypothesis rest)

/-- A rank that every step lowers bounds the steps. -/
theorem Steps.length_le {ranked : State -> Nat -> Prop}
    (lowers : forall s rank label s', ranked s rank -> system.next s label s' ->
      exists rank', rank' < rank ∧ ranked s' rank')
    {s s' : State} {labels : List Label} (steps : system.Steps s labels s') {rank : Nat}
    (here : ranked s rank) : labels.length ≤ rank := by
  induction steps generalizing rank with
  | refl s => exact Nat.zero_le rank
  | cons first _ inductionHypothesis =>
      rcases lowers _ _ _ _ here first with ⟨rank', less, there⟩
      exact Nat.lt_of_le_of_lt (inductionHypothesis there) less

/-- What holds initially and is kept by every guarded step holds after every
guarded run.  The property may speak about the labels of the run. -/
theorem Run.invariant (property : List Label -> State -> Prop)
    (initially : forall s, system.init s -> property [] s)
    (preserved : forall trace s label s', property trace s -> system.next s label s' ->
      guard trace s label s' -> property (trace ++ [label]) s')
    {trace : List Label} {s : State} (run : system.Run guard trace s) : property trace s := by
  induction run with
  | start initial => exact initially _ initial
  | step _ moved allowed inductionHypothesis =>
      exact preserved _ _ _ _ inductionHypothesis moved allowed

/-- A guard that says exactly which steps keep a property: the property holds
after every guarded run, and each further step keeps it exactly if the guard
admits the step.  The second property is what the guard may rely on. -/
theorem Run.exact {property relied : State -> Prop}
    (initially : forall s, system.init s -> relied s ∧ property s)
    (exactly : forall trace s label s', relied s -> property s -> system.next s label s' ->
      relied s' ∧ (property s' <-> guard trace s label s'))
    {trace : List Label} {s : State} (run : system.Run guard trace s) :
    (relied s ∧ property s) ∧
      forall label s', system.next s label s' -> (property s' <-> guard trace s label s') := by
  have holds : relied s ∧ property s := by
    refine run.invariant (fun _ s => relied s ∧ property s) initially ?_
    rintro trace s label s' ⟨relies, kept⟩ moved allowed
    rcases exactly trace s label s' relies kept moved with ⟨relies', kept_iff⟩
    exact ⟨relies', kept_iff.mpr allowed⟩
  exact ⟨holds, fun label s' moved => (exactly trace s label s' holds.1 holds.2 moved).2⟩

/-- A run under a guard is a run under every guard that follows from it in the
states that the guarded runs reach. -/
theorem Run.transfer {other : Guard State Label}
    (implies : forall trace s label s', system.Run guard trace s -> system.next s label s' ->
      guard trace s label s' -> other trace s label s')
    {trace : List Label} {s : State} (run : system.Run guard trace s) :
    system.Run other trace s := by
  induction run with
  | start initial => exact .start initial
  | step run moved allowed inductionHypothesis =>
      exact .step inductionHypothesis moved (implies _ _ _ _ run moved allowed)

/-- A property of the steps that follows from an invariant holds of every step of a run. -/
theorem Run.each {inv : State -> Prop} {property : State -> Label -> State -> Prop}
    (initially : forall s, system.init s -> inv s)
    (preserved : forall s label s', inv s -> system.next s label s' ->
      inv s' ∧ property s label s')
    {trace : List Label} {s : State} (run : system.Run unguarded trace s) :
    system.Run (fun _ => property) trace s := by
  have kept : forall trace s, system.Run unguarded trace s -> inv s :=
    fun _ _ run => run.invariant (fun _ => inv) initially
      fun _ s label s' holds moved _ => (preserved s label s' holds moved).1
  exact run.transfer fun trace s label s' run moved _ =>
    (preserved s label s' (kept trace s run) moved).2

/-- A run under a guard is a run under every weaker guard. -/
theorem Run.weaken {weaker : Guard State Label}
    (implies : forall trace s label s', guard trace s label s' -> weaker trace s label s')
    {trace : List Label} {s : State} (run : system.Run guard trace s) :
    system.Run weaker trace s :=
  run.transfer fun trace s label s' _ _ allowed => implies trace s label s' allowed

/-- A run that is short enough for the guard never to object is a guarded run. -/
theorem Run.restrict {trace : List Label} {s : State} (run : system.Run unguarded trace s)
    (allowed : forall before s label s', before.length < trace.length ->
      guard before s label s') : system.Run guard trace s := by
  induction run with
  | start initial => exact .start initial
  | @step before s label s' _ moved _ inductionHypothesis =>
      have shorter : before.length < (before ++ [label]).length := by simp
      exact .step
        (inductionHypothesis fun _ _ _ _ less => allowed _ _ _ _ (Nat.lt_trans less shorter))
        moved (allowed _ _ _ _ shorter)

/-- Unguarded runs extend by any sequence of steps. -/
theorem Run.append {trace labels : List Label} {s s' : State}
    (run : system.Run unguarded trace s) (steps : system.Steps s labels s') :
    system.Run unguarded (trace ++ labels) s' := by
  induction steps generalizing trace with
  | refl s => simpa using run
  | cons first _ inductionHypothesis =>
      have extended := inductionHypothesis (run.step first trivial)
      simpa only [List.append_assoc, List.singleton_append] using extended

/-- The beginning of a guarded run is a guarded run. -/
theorem Run.earlier {before trace : List Label} {s : State} (run : system.Run guard trace s)
    (begins : before <+: trace) : exists s', system.Run guard before s' := by
  induction run with
  | start initial =>
      rcases List.prefix_nil.mp begins with rfl
      exact ⟨_, .start initial⟩
  | step run moved allowed inductionHypothesis =>
      rcases List.prefix_concat_iff.mp begins with rfl | shorter
      · exact ⟨_, run.step moved allowed⟩
      · exact inductionHypothesis shorter

/-! ## Forward simulation -/

/-- A forward simulation of `concrete`, restricted to guarded runs, by
`abstract`.  One concrete step is matched by the abstract steps that
`observe` reads off its label: none for an internal step, two for a step that
does two abstract things at once.  The relation may depend on the labels so far. -/
structure Simulation {Abstract : Type w} {Action : Type x}
    (concrete : TransitionSystem State Label) (guard : Guard State Label)
    (abstract : TransitionSystem Abstract Action) (observe : Label -> List Action) where
  rel : List Label -> Abstract -> State -> Prop
  start : forall s, concrete.init s -> exists a, abstract.init a ∧ rel [] a s
  step : forall trace a s label s', rel trace a s -> concrete.next s label s' ->
    guard trace s label s' ->
    exists a', abstract.Steps a (observe label) a' ∧ rel (trace ++ [label]) a' s'

/-- Every guarded concrete run is matched by an abstract run with the observed labels. -/
theorem Simulation.run {Abstract : Type w} {Action : Type x}
    {abstract : TransitionSystem Abstract Action} {observe : Label -> List Action}
    (simulation : Simulation system guard abstract observe)
    {trace : List Label} {s : State} (run : system.Run guard trace s) :
    exists a, abstract.Run unguarded (trace.flatMap observe) a ∧ simulation.rel trace a s := by
  induction run with
  | start initial =>
      rcases simulation.start _ initial with ⟨a, abstractInitial, related⟩
      exact ⟨a, .start abstractInitial, related⟩
  | step _ moved allowed inductionHypothesis =>
      rcases inductionHypothesis with ⟨a, abstractRun, related⟩
      rcases simulation.step _ _ _ _ _ related moved allowed with ⟨a', steps, related'⟩
      refine ⟨a', ?_, related'⟩
      simpa only [List.flatMap_append, List.flatMap_singleton] using abstractRun.append steps

theorem Simulation.steps {Abstract : Type w} {Action : Type x}
    {abstract : TransitionSystem Abstract Action} {observe : Label -> List Action}
    (simulation : Simulation system unguarded abstract observe) {s s' : State}
    {labels : List Label} (steps : system.Steps s labels s') {trace : List Label} {a : Abstract}
    (related : simulation.rel trace a s) :
    exists a', abstract.Steps a (labels.flatMap observe) a' ∧
      simulation.rel (trace ++ labels) a' s' := by
  induction steps generalizing trace a with
  | refl s => exact ⟨a, .refl a, by rwa [List.append_nil]⟩
  | cons first _ inductionHypothesis =>
      rcases simulation.step _ _ _ _ _ related first trivial with ⟨a', step, related'⟩
      rcases inductionHypothesis related' with ⟨a'', rest, related''⟩
      refine ⟨a'', ?_, by simpa only [List.append_assoc, List.singleton_append] using related''⟩
      rw [List.flatMap_cons]
      exact step.append rest

/-- Simulations compose. -/
def Simulation.trans {Abstract : Type w} {Action : Type x} {Top : Type y} {Move : Type z}
    {abstract : TransitionSystem Abstract Action} {top : TransitionSystem Top Move}
    {observe : Label -> List Action} {watch : Action -> List Move}
    (lower : Simulation system guard abstract observe)
    (upper : Simulation abstract unguarded top watch) :
    Simulation system guard top (fun label => (observe label).flatMap watch) where
  rel := fun trace b s => exists labels a, upper.rel labels b a ∧ lower.rel trace a s
  start := by
    intro s initial
    rcases lower.start s initial with ⟨a, abstractInitial, below⟩
    rcases upper.start a abstractInitial with ⟨b, topInitial, above⟩
    exact ⟨b, topInitial, [], a, above, below⟩
  step := by
    rintro trace b s label s' ⟨labels, a, above, below⟩ moved allowed
    rcases lower.step trace a s label s' below moved allowed with ⟨a', steps, below'⟩
    rcases upper.steps steps above with ⟨b', steps', above'⟩
    exact ⟨b', steps', _, a', above', below'⟩

end TransitionSystem

end Concurrency
end Autolock
