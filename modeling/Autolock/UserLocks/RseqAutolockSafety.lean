import Autolock.Concurrency.Exclusive
import Autolock.UserLocks.RseqAutolock

namespace Autolock
namespace UserLocks

open Concurrency

/-!
# What the restartable waiting loop gets right and wrong

Wherever an abort takes a thread, it enters with an exchange that has found the
word unlocked, so there is only ever one holder.  But what the assembly arms is
the thread-local pointer and the word behind it, never the page: as soon as a
call has got that far, it has stored something in the wrong place.
-/

namespace RseqAutolock

variable {Tid : Type} {lockMem : UInt64}

/-! ## Who holds the lock -/

/-- A step keeps the word and who holds it, takes the free word, or gives it back. -/
inductive StepEffect (mem mem' : UInt32) (l l' : RseqThread) : Prop
  | silent (word : mem' = mem) (same : l'.pc.holdsLock = l.pc.holdsLock)
  | acquires (free : mem ≠ locked) (word : mem' = locked) (before : l.pc.holdsLock = false)
  | releases (before : l.pc.holdsLock = true) (after : l'.pc.holdsLock = false)

theorem step_effect {action : RseqAction} {mem mem' : UInt32} {l l' : RseqThread}
    {event : RseqEvent} (stepped : step lockMem action mem l = some (mem', l', event)) :
    StepEffect mem mem' l l' := by
  rcases l with ⟨pc, kernelAutolock, behind, pages, eax, edx, found⟩
  unfold step at stepped
  cases pc <;> cases action <;>
    simp only [RseqPc.inCriticalSection, if_true, Bool.false_eq_true, if_false,
      reduceCtorEq] at stepped
  case tryLoad.run caller =>
    split at stepped
    · rcases stepped with ⟨⟩
      exact .silent rfl rfl
    · cases caller <;> rcases stepped with ⟨⟩ <;> exact .silent rfl rfl
  case tryExchange.run caller =>
    split at stepped
    · next free =>
        cases caller <;> rcases stepped with ⟨⟩ <;> exact .acquires free rfl rfl
    · next taken =>
        cases caller <;> rcases stepped with ⟨⟩ <;> exact .silent (not_not.mp taken).symm rfl
  case jg.run again =>
    cases again <;> rcases stepped with ⟨⟩ <;> exact .silent rfl rfl
  case test.run path =>
    split at stepped <;> rcases stepped with ⟨⟩ <;> exact .silent rfl rfl
  case xchg.run path =>
    split at stepped
    · next taken =>
        rcases stepped with ⟨⟩
        exact .silent taken.symm rfl
    · next free =>
        rcases stepped with ⟨⟩
        exact .acquires free rfl rfl
  case holding.callUnlock =>
    rcases stepped with ⟨⟩
    exact .releases rfl rfl
  all_goals
    rcases stepped with ⟨⟩
    exact .silent rfl rfl

/-- While somebody holds the lock the word is locked, and nobody else holds it. -/
structure Owned (s : Machine Tid UInt32 RseqThread) : Prop where
  word : forall t, (s.thread t).pc.holdsLock = true -> s.shared = locked
  holder : Exclusive (fun l : RseqThread => l.pc.holdsLock = true) s.thread

variable [DecidableEq Tid]

theorem Owned.step {s : Machine Tid UInt32 RseqThread} (owned : Owned s) {t : Tid}
    {mem' : UInt32} {l' : RseqThread} (effect : StepEffect s.shared mem' (s.thread t) l') :
    Owned ⟨mem', Function.update s.thread t l'⟩ := by
  cases effect with
  | silent word same =>
      have kept : l'.pc.holdsLock = true -> (s.thread t).pc.holdsLock = true :=
        fun holds => same.symm.trans holds
      refine ⟨?_, owned.holder.keep kept⟩
      rw [Function.forall_update_iff s.thread fun _ l => l.pc.holdsLock = true -> mem' = locked,
        word]
      exact ⟨fun holds => owned.word t (kept holds), fun u _ => owned.word u⟩
  | acquires free word before =>
      refine ⟨fun _ _ => word, Exclusive.enter fun u holds => free (owned.word u holds)⟩
  | releases before after =>
      have gone : ¬l'.pc.holdsLock = true := by
        rw [after]
        exact Bool.false_ne_true
      refine ⟨?_, owned.holder.keep fun holds => absurd holds gone⟩
      rw [Function.forall_update_iff s.thread fun _ l => l.pc.holdsLock = true -> mem' = locked]
      exact ⟨fun holds => absurd holds gone,
        fun u different holds => absurd (owned.holder u t holds before) different⟩

theorem owned_of_run {trace : List (Tid × RseqEvent)} {s : Machine Tid UInt32 RseqThread}
    (run : (system Tid lockMem).Run TransitionSystem.unguarded trace s) : Owned s := by
  refine run.invariant (fun _ => Owned) ?_ ?_
  · intro s initial
    have nobody : forall t, ¬(s.thread t).pc.holdsLock = true := by
      intro t holds
      rw [(initial.2 t).1] at holds
      exact Bool.false_ne_true holds
    exact ⟨fun t holds => absurd holds (nobody t), fun t _ holds => absurd holds (nobody t)⟩
  · intro _ s label s' owned moved _
    rcases Program.system_next moved with ⟨action, mem', l', stepped, rfl⟩
    exact owned.step (step_effect stepped)

/-! ## What is armed, and where -/

/-- Behind the first store of the assembly. -/
def hasArmed : RseqPc -> Bool
  | .outside | .tryLoad _ | .tryExchange _ | .initKernelState | .storeFor | .holding => false
  | _ => true

/-- The pages are never stored into, and up to the assembly `lock` leaves the pointer alone. -/
def ThreadOk (l : RseqThread) : Prop :=
  (forall address, (l.pages address).watchMem = none) ∧
    match l.pc with
    | .tryLoad .lock | .tryExchange .lock => l.kernelAutolock = l.found
    | _ => True

/-- What a step of a thread arms, and what it leaves to the caller. -/
structure ArmEffect (l l' : RseqThread) (event : RseqEvent) : Prop where
  ok : ThreadOk l'
  armed : hasArmed l'.pc = true -> hasArmed l.pc = true ∨ Arms event
  misplaced : Arms event -> ¬InPage event
  harmless : ¬Arms event -> hasArmed l.pc = false -> InPage event

theorem armEffect_internal {l l' : RseqThread} (ok : ThreadOk l')
    (armed : hasArmed l'.pc = true -> hasArmed l.pc = true) : ArmEffect l l' .internal where
  ok := ok
  armed := fun after => Or.inl (armed after)
  misplaced := nofun
  harmless := fun _ _ => trivial

omit [DecidableEq Tid] in
theorem step_armEffect {action : RseqAction} {mem mem' : UInt32} {l l' : RseqThread}
    {event : RseqEvent} (stepped : step lockMem action mem l = some (mem', l', event))
    (ok : ThreadOk l) : ArmEffect l l' event := by
  rcases l with ⟨pc, kernelAutolock, behind, pages, eax, edx, found⟩
  rcases ok with ⟨disarmed, pointer⟩
  unfold step at stepped
  cases pc <;> cases action <;>
    simp only [RseqPc.inCriticalSection, if_true, Bool.false_eq_true, if_false,
      reduceCtorEq] at stepped
  case outside.callLock =>
    rcases stepped with ⟨⟩
    exact armEffect_internal ⟨disarmed, rfl⟩ nofun
  case tryLoad.run caller =>
    split at stepped
    · rcases stepped with ⟨⟩
      exact armEffect_internal ⟨disarmed, by cases caller <;> exact pointer⟩ nofun
    · cases caller <;> rcases stepped with ⟨⟩
      · exact ⟨⟨disarmed, trivial⟩, nofun, nofun, fun _ _ => trivial⟩
      · exact armEffect_internal ⟨disarmed, trivial⟩ nofun
  case tryExchange.run caller =>
    split at stepped
    · cases caller <;> rcases stepped with ⟨⟩
      · exact ⟨⟨disarmed, trivial⟩, nofun, nofun, fun _ _ => trivial⟩
      · exact ⟨⟨disarmed, trivial⟩, nofun, nofun, fun _ _ => ⟨pointer, disarmed _⟩⟩
    · cases caller <;> rcases stepped with ⟨⟩
      · exact ⟨⟨disarmed, trivial⟩, nofun, nofun, fun _ _ => trivial⟩
      · exact armEffect_internal ⟨disarmed, trivial⟩ nofun
  case holding.callUnlock =>
    rcases stepped with ⟨⟩
    exact ⟨⟨disarmed, trivial⟩, nofun, nofun, fun _ _ => trivial⟩
  -- the stores of the assembly, all of them into the thread-local block
  case storeFor.run =>
    rcases stepped with ⟨⟩
    exact ⟨⟨disarmed, trivial⟩, fun _ => Or.inr trivial, fun _ => nofun,
      fun quiet _ => absurd trivial quiet⟩
  case storeMem.run =>
    rcases stepped with ⟨⟩
    exact ⟨⟨disarmed, trivial⟩, fun _ => Or.inl rfl, fun _ => nofun,
      fun quiet _ => absurd trivial quiet⟩
  case disarm.run path =>
    rcases stepped with ⟨⟩
    exact ⟨⟨disarmed, trivial⟩, fun _ => Or.inl rfl, fun _ => nofun,
      fun quiet _ => absurd trivial quiet⟩
  case xchg.run path =>
    split at stepped <;> rcases stepped with ⟨⟩
    · exact armEffect_internal ⟨disarmed, trivial⟩ fun _ => rfl
    · exact ⟨⟨disarmed, trivial⟩, nofun, nofun, nofun⟩
  case jg.run again =>
    cases again <;> rcases stepped with ⟨⟩ <;>
      exact armEffect_internal ⟨disarmed, trivial⟩ fun _ => rfl
  case test.run path =>
    split at stepped <;> rcases stepped with ⟨⟩ <;>
      exact armEffect_internal ⟨disarmed, trivial⟩ fun _ => rfl
  all_goals
    rcases stepped with ⟨⟩
    exact armEffect_internal ⟨disarmed, trivial⟩ fun armed => armed

/-- As long as nothing has been armed, every caller got what it relies on. -/
structure ArmsMisplaced (trace : List (Tid × RseqEvent)) (s : Machine Tid UInt32 RseqThread) :
    Prop where
  threads : forall t, ThreadOk (s.thread t)
  armed : forall t, hasArmed (s.thread t).pc = true -> exists label, label ∈ trace ∧ Arms label.2
  inPage_iff : (forall label, label ∈ trace -> InPage label.2) <->
    forall label, label ∈ trace -> ¬Arms label.2

theorem armsMisplaced_of_run {trace : List (Tid × RseqEvent)} {s : Machine Tid UInt32 RseqThread}
    (run : (system Tid lockMem).Run TransitionSystem.unguarded trace s) :
    ArmsMisplaced trace s := by
  refine run.invariant ArmsMisplaced ?_ ?_
  · intro s initial
    refine ⟨fun t => ⟨(initial.2 t).2, ?_⟩, fun t armed => ?_, by simp⟩
    · rw [(initial.2 t).1]
      trivial
    · rw [(initial.2 t).1] at armed
      exact absurd armed Bool.false_ne_true
  · intro trace s label s' before moved _
    rcases Program.system_next moved with ⟨action, mem', l', stepped, rfl⟩
    have effect := step_armEffect stepped (before.threads label.1)
    refine ⟨?_, fun t armed => ?_, ?_⟩
    · rw [Function.forall_update_iff s.thread fun _ l => ThreadOk l]
      exact ⟨effect.ok, fun t _ => before.threads t⟩
    · have earlier : (exists label, label ∈ trace ∧ Arms label.2) ∨ Arms label.2 := by
        by_cases same : t = label.1
        · dsimp only at armed
          rw [same, Function.update_self] at armed
          exact (effect.armed armed).imp_left (before.armed label.1)
        · dsimp only at armed
          rw [Function.update_of_ne same] at armed
          exact Or.inl (before.armed t armed)
      rcases earlier with ⟨other, member, arms⟩ | arms
      · exact ⟨other, List.mem_append_left _ member, arms⟩
      · exact ⟨label, List.mem_append_right _ (List.mem_singleton_self label), arms⟩
    · simp only [List.forall_mem_append, List.forall_mem_singleton]
      constructor
      · rintro ⟨all, last⟩
        exact ⟨before.inPage_iff.mp all, fun arms => effect.misplaced arms last⟩
      · rintro ⟨all, last⟩
        refine ⟨before.inPage_iff.mpr all, effect.harmless last ?_⟩
        by_contra armed
        rcases before.armed label.1 (Bool.eq_true_of_not_eq_false armed) with
          ⟨other, member, arms⟩
        exact all other member arms

/-- In every run at most one thread holds the lock, wherever threads are aborted.
What is armed is in the pages and the pointers are as they were exactly if no
call has got as far as arming anything. -/
theorem lock_exclusive_and_inPage_iff {trace : List (Tid × RseqEvent)}
    {s : Machine Tid UInt32 RseqThread}
    (run : (system Tid lockMem).Run TransitionSystem.unguarded trace s) :
    (forall t u, (s.thread t).pc.holdsLock = true -> (s.thread u).pc.holdsLock = true -> t = u) ∧
      ((forall label, label ∈ trace -> InPage label.2) <->
        forall label, label ∈ trace -> ¬Arms label.2) := by
  exact ⟨(owned_of_run run).holder, (armsMisplaced_of_run run).inPage_iff⟩

/-- Threads whose page is at address 4096. -/
def pagedThreads : Machine Nat UInt32 RseqThread where
  shared := unlocked
  thread := fun _ => ⟨.outside, 4096, 0, fun _ => ⟨none, 0, 0⟩, 0, 0, 0⟩

/-- Thread 0 unlocks while thread 1, which waits in the loop, is aborted and tries again. -/
def abortedThenEntered : List (Nat × RseqAction) :=
  [(0, .callLock), (0, .run), (0, .run), (1, .callLock), (1, .run), (1, .created 3 8192),
    (1, .run), (1, .time 0), (1, .run), (1, .abort), (0, .callUnlock), (1, .run), (1, .run),
    (1, .run)]

theorem lock_exclusive_and_inPage_iff_abortedThenEntered :
    let end' := (program Nat 64).play abortedThenEntered pagedThreads
    (forall t u, (end'.1.thread t).pc.holdsLock = true -> (end'.1.thread u).pc.holdsLock = true ->
        t = u) ∧
      ((forall label, label ∈ end'.2 -> InPage label.2) <->
        forall label, label ∈ end'.2 -> ¬Arms label.2) :=
  lock_exclusive_and_inPage_iff
    (Program.run_play ⟨rfl, fun _ => ⟨rfl, fun _ => rfl⟩⟩ abortedThenEntered (by decide))

/-- Thread 1 returns as the holder without its pointer to the page, and the triple
went into the thread-local block. -/
theorem abortedThenEntered_losesPointer :
    exists trace s, (system Nat 64).Run TransitionSystem.unguarded trace s ∧
      (1, .watchStored (.threadLocal 8) 4096) ∈ trace ∧
      (1, .lockReturned iSuccess 4096 nullPointer ⟨none, 0, 0⟩) ∈ trace ∧
      ¬forall label, label ∈ trace -> InPage label.2 :=
  ⟨_, _, Program.run_play (s := pagedThreads) ⟨rfl, fun _ => ⟨rfl, fun _ => rfl⟩⟩
    abortedThenEntered (by decide), by decide, by decide, by decide⟩

omit [DecidableEq Tid] in
/-- A call of `lock` that finds the word locked goes on to arm, whatever the system calls return. -/
theorem solo_arms {t : Tid} {l : RseqThread}
    (fastPath : l.pc = .tryLoad .lock ∨ l.pc = .tryExchange .lock) (fd : Int32) (p : UInt64) :
    exists events l', (program Tid lockMem).Solo t locked l events locked l' ∧
      exists event, event ∈ events ∧ Arms event := by
  rcases l with ⟨pc, kernelAutolock, behind, pages, eax, edx, found⟩
  rcases fastPath with rfl | rfl
  all_goals
    refine ⟨_, _, .cons .run rfl (.cons (.created fd p) rfl (.cons .run rfl (.refl _ _))), ?_⟩
    exact ⟨.watchStored (.threadLocal 8) (autolockInitKernelState kernelAutolock fd p).2,
      by simp, trivial⟩

end RseqAutolock

end UserLocks
end Autolock
