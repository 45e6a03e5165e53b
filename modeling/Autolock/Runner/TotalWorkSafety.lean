import Autolock.Concurrency.WrappingCounter
import Autolock.Runner.TotalWork
import Mathlib.Tactic.Ring

namespace Autolock
namespace Runner

open Concurrency

/-!
# When the benchmark of total work completes

Whenever the lock is free the counter is a multiple of the chunk, modulo its
period.  A thread that leaves has read the total, and nobody adds to it any
more.  So the benchmark completes exactly if some multiple of the chunk is
congruent to the total; otherwise all threads go around forever.
-/

namespace TotalWork

/-! ## Where a thread is -/

/-- The thread has the lock. -/
def Holds : TotalWorkPc -> Prop
  | .loadGlobalState | .csLoad _ | .csStore _ _ | .unlock | .unlockBreak => True
  | _ => False

/-- The thread is adding its chunk. -/
def Working : TotalWorkPc -> Prop
  | .csLoad _ | .csStore _ _ => True
  | _ => False

/-- The counter after some number of chunks. -/
def Chunks (p : TotalWork) (n : UInt64) : Prop :=
  exists k : Nat, n = UInt64.ofNat (k * p.csIter.toNat)

/-- What the counter is for a thread at some place. -/
def At (p : TotalWork) (n : UInt64) : TotalWorkPc -> Prop
  | .lock | .extraWork _ => True
  | .loadGlobalState | .unlock => p.Chunks n
  | .csLoad i => i ≠ 0 ∧ p.Chunks (n + i.toUInt64)
  | .csStore i value => i ≠ 0 ∧ value = n ∧ p.Chunks (n + i.toUInt64)
  | .unlockBreak => n = p.totalIter.toUInt64 ∧ p.Chunks n
  | .left => n = p.totalIter.toUInt64

variable {p : TotalWork} {n : UInt64} {pc : TotalWorkPc}

theorem chunks_zero : p.Chunks 0 :=
  ⟨0, by rw [Nat.zero_mul]; rfl⟩

theorem Chunks.add (chunks : p.Chunks n) : p.Chunks (n + p.csIter.toUInt64) := by
  rcases chunks with ⟨k, rfl⟩
  refine ⟨k + 1, ?_⟩
  rw [Nat.add_mul, UInt64.ofNat_add, Nat.one_mul, UInt64.ofNat_uInt32ToNat]

theorem succ_add_pred (n : UInt64) {i : UInt32} (nonzero : i ≠ 0) :
    n + 1 + (i - 1).toUInt64 = n + i.toUInt64 := by
  have less := toNat_sub_one nonzero
  have one : (1 : UInt64).toNat = 1 := rfl
  apply UInt64.toNat_inj.mp
  simp only [UInt64.toNat_add, UInt32.toNat_toUInt64]
  omega

/-- The chunks that lead to the total. -/
theorem chunks_total_iff :
    p.Chunks p.totalIter.toUInt64 <-> p.csIter.toNat.gcd (2 ^ 64) ∣ p.totalIter.toNat := by
  have same : forall k : Nat, p.totalIter.toUInt64 = UInt64.ofNat (k * p.csIter.toNat) <->
      k * p.csIter.toNat ≡ p.totalIter.toNat [MOD 2 ^ 64] := by
    intro k
    have small : p.totalIter.toNat < 2 ^ 64 := Nat.lt_trans p.totalIter.toNat_lt (by decide)
    rw [← UInt64.toNat_inj, UInt32.toNat_toUInt64, UInt64.toNat_ofNat', Nat.ModEq,
      Nat.mod_eq_of_lt small, eq_comm]
  constructor
  · rintro ⟨k, reaches⟩
    exact gcd_dvd_of_modEq ((same k).mp reaches)
  · intro divides
    rcases exists_mul_modEq (by decide) divides with ⟨k, reaches⟩
    exact ⟨k, (same k).mpr reaches⟩

/-! ## The loop conditions -/

theorem at_csLoop {i : UInt32} (chunks : p.Chunks (n + i.toUInt64)) : At p n (csLoop i) := by
  unfold csLoop
  split
  · next zero =>
      rw [zero] at chunks
      simpa [At] using chunks
  · next nonzero => exact ⟨nonzero, chunks⟩

theorem holds_csLoop (i : UInt32) : Holds (csLoop i) := by
  unfold csLoop
  split <;> trivial

theorem not_holds_extraLoop (i : UInt32) : ¬Holds (extraLoop i) := by
  unfold extraLoop
  split <;> exact id

theorem not_working_extraLoop (i : UInt32) : ¬Working (extraLoop i) := by
  unfold extraLoop
  split <;> exact id

theorem not_done_extraLoop (i : UInt32) : ¬Done (extraLoop i) := by
  unfold extraLoop
  split <;> exact id

theorem not_done_of_holds_csLoop (i : UInt32) : ¬Done (csLoop i) := by
  unfold csLoop
  split <;> exact id

theorem holds_of_working (working : Working pc) : Holds pc := by
  cases pc <;> trivial

theorem leaving_of_holds (holds : Holds pc) (done : Done pc) : pc = .unlockBreak := by
  cases pc
  case unlockBreak => rfl
  case left => cases holds
  all_goals cases done

/-- To a thread that neither has the lock nor has left the counter means nothing. -/
theorem at_of_idle (idle : ¬Holds pc) (stays : ¬Done pc) : At p n pc := by
  cases pc
  case lock => trivial
  case extraWork i => trivial
  case left => exact absurd trivial stays
  all_goals exact absurd trivial idle

/-! ## The invariant -/

variable {Tid : Type} [DecidableEq Tid] {s s' : Machine Tid (BenchShared Tid) TotalWorkPc} {t : Tid}
  {shared' : BenchShared Tid} {pc' : TotalWorkPc} {event : TotalWorkEvent}

structure Inv (p : TotalWork) (s : Machine Tid (BenchShared Tid) TotalWorkPc) : Prop where
  owner : forall t, Holds (s.thread t) -> s.shared.lock = some t
  held : forall t, s.shared.lock = some t -> Holds (s.thread t)
  free : s.shared.lock = none -> p.Chunks s.shared.globalState
  places : forall t, At p s.shared.globalState (s.thread t)
  settled : forall t, Done (s.thread t) -> forall u, ¬Working (s.thread u)

omit [DecidableEq Tid] in
theorem Inv.alone (inv : Inv p s) (mine : Holds (s.thread t)) {u : Tid} (different : u ≠ t) :
    ¬Holds (s.thread u) := by
  intro too
  have same := (inv.owner u too).symm.trans (inv.owner t mine)
  exact different (Option.some.inj same)

omit [DecidableEq Tid] in
/-- Whoever is done has read the total, so nobody reads anything else. -/
theorem Inv.done (inv : Inv p s) (done : Done (s.thread t)) :
    s.shared.globalState = p.totalIter.toUInt64 := by
  have place := inv.places t
  generalize s.thread t = pc at done place
  cases pc
  case unlockBreak => exact place.1
  case left => exact place
  all_goals cases done

/-- A step of a thread while nobody else has the lock. -/
theorem Inv.update (inv : Inv p s) (others : forall u, u ≠ t -> ¬Holds (s.thread u))
    (lock : Holds pc' ∧ shared'.lock = some t ∨ ¬Holds pc' ∧ shared'.lock = none)
    (free : shared'.lock = none -> p.Chunks shared'.globalState)
    (place : At p shared'.globalState pc') (once : Done pc' -> ¬Working pc')
    (counts : shared'.globalState = s.shared.globalState ∨ forall u, u ≠ t -> ¬Done (s.thread u))
    (works : Working pc' -> forall u, u ≠ t -> ¬Done (s.thread u)) :
    Inv p ⟨shared', Function.update s.thread t pc'⟩ := by
  constructor
  · refine (Function.forall_update_iff s.thread fun u pc => Holds pc -> shared'.lock = some u).mpr
      ⟨fun holds => ?_, fun u different holds => absurd holds (others u different)⟩
    rcases lock with ⟨-, owned⟩ | ⟨released, -⟩
    · exact owned
    · exact absurd holds released
  · refine (Function.forall_update_iff s.thread fun u pc => shared'.lock = some u -> Holds pc).mpr
      ⟨fun owned => ?_, fun u different owned => ?_⟩
    · rcases lock with ⟨holds, -⟩ | ⟨-, released⟩
      · exact holds
      · rw [released] at owned
        cases owned
    · rcases lock with ⟨-, mine⟩ | ⟨-, released⟩
      · exact absurd (Option.some.inj (owned.symm.trans mine)) different
      · rw [released] at owned
        cases owned
  · exact free
  · refine (Function.forall_update_iff s.thread fun _ => At p shared'.globalState).mpr
      ⟨place, fun u different => ?_⟩
    rcases counts with same | nobody
    · rw [same]
      exact inv.places u
    · exact at_of_idle (others u different) (nobody u different)
  · have rests : forall u, u ≠ t -> ¬Working (s.thread u) :=
      fun u different working => others u different (holds_of_working working)
    refine (Function.forall_update_iff s.thread fun _ pc => Done pc -> _).mpr
      ⟨fun done => ?_, fun u different done => ?_⟩
    · exact (Function.forall_update_iff s.thread fun _ pc => ¬Working pc).mpr ⟨once done, rests⟩
    · exact (Function.forall_update_iff s.thread fun _ pc => ¬Working pc).mpr
        ⟨fun working => works working u different done, rests⟩

/-- A step of a thread that neither has the lock nor gets it. -/
theorem Inv.idle (inv : Inv p s) (idle : ¬Holds (s.thread t)) (still : ¬Holds pc')
    (stays : ¬Done pc') : Inv p ⟨s.shared, Function.update s.thread t pc'⟩ := by
  constructor
  · exact (Function.forall_update_iff s.thread fun u pc => Holds pc -> s.shared.lock = some u).mpr
      ⟨fun holds => absurd holds still, fun u _ => inv.owner u⟩
  · exact (Function.forall_update_iff s.thread fun u pc => s.shared.lock = some u -> Holds pc).mpr
      ⟨fun owned => absurd (inv.held t owned) idle, fun u _ => inv.held u⟩
  · exact inv.free
  · exact (Function.forall_update_iff s.thread fun _ => At p s.shared.globalState).mpr
      ⟨at_of_idle still stays, fun u _ => inv.places u⟩
  · refine (Function.forall_update_iff s.thread fun _ pc => Done pc -> _).mpr
      ⟨fun done => absurd done stays, fun u _ done => ?_⟩
    exact (Function.forall_update_iff s.thread fun _ pc => ¬Working pc).mpr
      ⟨fun working => still (holds_of_working working), fun v _ => inv.settled u done v⟩

omit [DecidableEq Tid] in
/-- Nobody is done while the counter is being read as something else or added to. -/
theorem Inv.nobodyDone (inv : Inv p s)
    (going : Working (s.thread t) ∨ s.shared.globalState ≠ p.totalIter.toUInt64) (u : Tid) :
    ¬Done (s.thread u) := by
  intro done
  rcases going with working | short
  · exact inv.settled u done t working
  · exact short (inv.done done)

theorem Inv.step (inv : Inv p s)
    (stepped : p.step t s.shared (s.thread t) = some (shared', pc', event)) :
    Inv p ⟨shared', Function.update s.thread t pc'⟩ := by
  have place := inv.places t
  have alone := inv.alone (t := t)
  have owner := inv.owner t
  have nobody := inv.nobodyDone (t := t)
  have idle := @Inv.idle _ _ _ _ t pc' inv
  generalize s.thread t = pc at stepped place alone owner nobody idle
  cases pc <;> simp only [TotalWork.step] at stepped
  case lock =>
    split at stepped
    · next free =>
        cases stepped
        have others : forall u, u ≠ t -> ¬Holds (s.thread u) := by
          intro u _ holds
          have owned := inv.owner u holds
          rw [free] at owned
          cases owned
        exact inv.update others (.inl ⟨trivial, rfl⟩) (fun taken => by cases taken)
          (inv.free free) (fun done => done.elim) (.inl rfl) (fun works => works.elim)
    · cases stepped
  case loadGlobalState =>
    split at stepped
    · next done =>
        cases stepped
        exact inv.update (fun u => alone trivial) (.inl ⟨trivial, owner trivial⟩) (fun _ => place)
          ⟨(of_decide_eq_true done).symm, place⟩ (fun _ => id) (.inl rfl) (fun works => works.elim)
    · next short =>
        cases stepped
        have going : s.shared.globalState ≠ p.totalIter.toUInt64 :=
          fun equal => short (decide_eq_true equal.symm)
        exact inv.update (fun u => alone trivial) (.inl ⟨holds_csLoop _, owner trivial⟩)
          (fun _ => place) (at_csLoop place.add)
          (fun done => absurd done (not_done_of_holds_csLoop _)) (.inl rfl)
          (fun _ u _ => nobody (.inr going) u)
  case csLoad i =>
    cases stepped
    exact inv.update (fun u => alone trivial) (.inl ⟨trivial, owner trivial⟩)
      (fun free => by rw [owner trivial] at free; cases free) ⟨place.1, rfl, place.2⟩
      (fun done => done.elim) (.inl rfl) (fun _ u _ => nobody (.inl trivial) u)
  case csStore i value =>
    cases stepped
    rcases place with ⟨nonzero, rfl, chunks⟩
    rw [← succ_add_pred _ nonzero] at chunks
    exact inv.update (fun u => alone trivial) (.inl ⟨holds_csLoop _, owner trivial⟩)
      (fun free => by rw [owner trivial] at free; cases free) (at_csLoop chunks)
      (fun done => absurd done (not_done_of_holds_csLoop _))
      (.inr fun u _ => nobody (.inl trivial) u) (fun _ u _ => nobody (.inl trivial) u)
  case unlock =>
    cases stepped
    exact inv.update (fun u => alone trivial) (.inr ⟨not_holds_extraLoop _, rfl⟩) (fun _ => place)
      (at_of_idle (not_holds_extraLoop _) (not_done_extraLoop _))
      (fun done => absurd done (not_done_extraLoop _)) (.inl rfl)
      (fun works => absurd works (not_working_extraLoop _))
  case extraWork i =>
    cases stepped
    exact idle id (not_holds_extraLoop _) (not_done_extraLoop _)
  case unlockBreak =>
    cases stepped
    exact inv.update (fun u => alone trivial) (.inr ⟨id, rfl⟩) (fun _ => place.2) place.1
      (fun _ => id) (.inl rfl) (fun works => works.elim)
  case left => cases stepped

omit [DecidableEq Tid] in
theorem inv_start : Inv p (start Tid) where
  owner := fun _ holds => holds.elim
  held := fun _ owned => by cases owned
  free := fun _ => chunks_zero
  places := fun _ => trivial
  settled := fun _ done => done.elim

theorem Inv.next {label : Tid × TotalWorkEvent} (inv : Inv p s)
    (moved : (system Tid p).next s label s') : Inv p s' := by
  rcases Program.system_next moved with ⟨_, shared', pc', stepped, rfl⟩
  exact inv.step stepped

theorem inv_of_run {trace : List (Tid × TotalWorkEvent)}
    (run : (system Tid p).Run TransitionSystem.unguarded trace s) : Inv p s :=
  run.invariant (fun _ => Inv p) (fun _ initial => initial ▸ inv_start)
    (fun _ _ _ _ inv moved _ => inv.next moved)

/-! ## What a thread can do alone -/

/-- The critical section runs to its end. -/
theorem solo_csLoop (i : UInt32) (lock : Option Tid) (n : UInt64) :
    exists events, (program Tid p).Solo t ⟨lock, n⟩ (csLoop i) events ⟨lock, n + i.toUInt64⟩
      .unlock := by
  generalize size : i.toNat = m
  induction m generalizing i n with
  | zero =>
      have zero : i = 0 := UInt32.toNat_inj.mp size
      refine ⟨[], ?_⟩
      rw [zero, csLoop, if_pos rfl]
      simpa using @Program.Solo.refl _ _ _ _ _ (program Tid p) t
        (⟨lock, n⟩ : BenchShared Tid) TotalWorkPc.unlock
  | succ m inductionHypothesis =>
      have nonzero : i ≠ 0 := by
        rintro rfl
        cases size
      have smaller : (i - 1).toNat = m := by
        have := toNat_sub_one nonzero
        omega
      rcases inductionHypothesis (i - 1) (n + 1) smaller with ⟨events, rest⟩
      rw [succ_add_pred n nonzero] at rest
      refine ⟨.internal :: .internal :: events, ?_⟩
      rw [csLoop, if_neg nonzero]
      exact .cons () rfl (.cons () rfl rest)

theorem solo_extraLoop (i : UInt32) (shared : BenchShared Tid) :
    exists events, (program Tid p).Solo t shared (extraLoop i) events shared .lock := by
  generalize size : i.toNat = m
  induction m generalizing i with
  | zero =>
      have zero : i = 0 := UInt32.toNat_inj.mp size
      rw [zero, extraLoop, if_pos rfl]
      exact ⟨[], .refl _ _⟩
  | succ m inductionHypothesis =>
      have nonzero : i ≠ 0 := by
        rintro rfl
        cases size
      have smaller : (i - 1).toNat = m := by
        have := toNat_sub_one nonzero
        omega
      rcases inductionHypothesis (i - 1) smaller with ⟨events, rest⟩
      rw [extraLoop, if_neg nonzero]
      exact ⟨_, .cons () rfl rest⟩

/-- From the end of the critical section back to the lock. -/
theorem solo_unlock (lock : Option Tid) (n : UInt64) :
    exists events, (program Tid p).Solo t ⟨lock, n⟩ .unlock events ⟨none, n⟩ .lock := by
  rcases solo_extraLoop (t := t) p.extraIter ⟨none, n⟩ with ⟨events, rest⟩
  exact ⟨_, .cons () rfl rest⟩

/-- A thread that goes on adding finds the lock free again. -/
theorem solo_works (i : UInt32) (lock : Option Tid) (n : UInt64) :
    exists events, (program Tid p).Solo t ⟨lock, n⟩ (csLoop i) events ⟨none, n + i.toUInt64⟩
      .lock := by
  rcases solo_csLoop (p := p) (t := t) i lock n with ⟨first, adds⟩
  rcases solo_unlock (p := p) (t := t) lock (n + i.toUInt64) with ⟨second, returns⟩
  exact ⟨_, adds.append returns⟩

/-- A thread alone comes to a test that is true. -/
def Tests (p : TotalWork) (t : Tid) (shared : BenchShared Tid) (pc : TotalWorkPc) : Prop :=
  exists events shared' pc', (program Tid p).Solo t shared pc events shared' pc' ∧
    .tested true ∈ events

theorem Tests.after {shared shared' : BenchShared Tid} {events : List TotalWorkEvent}
    (first : (program Tid p).Solo t shared pc events shared' pc') (tests : p.Tests t shared' pc') :
    p.Tests t shared pc := by
  rcases tests with ⟨later, last, pcLast, rest, tested⟩
  exact ⟨_, last, pcLast, first.append rest, List.mem_append_right _ tested⟩

/-- One round of a thread: it tests, adds its chunk and comes back. -/
theorem tests_round (n : UInt64)
    (again : ¬p.workDone n = true -> p.Tests t ⟨none, n + p.csIter.toUInt64⟩ .lock) :
    p.Tests t ⟨none, n⟩ .lock := by
  have takes : (program Tid p).Solo t ⟨none, n⟩ .lock [.internal] ⟨some t, n⟩ .loadGlobalState :=
    .cons () rfl (.refl _ _)
  refine Tests.after takes ?_
  by_cases done : p.workDone n = true
  · refine ⟨[.tested true], ⟨some t, n⟩, .unlockBreak, .cons () ?_ (.refl _ _), by simp⟩
    simp only [program, TotalWork.step, done, if_true]
  · have short : (program Tid p).Solo t ⟨some t, n⟩ .loadGlobalState [.tested false] ⟨some t, n⟩
        (csLoop p.csIter) := by
      refine .cons () ?_ (.refl _ _)
      simp only [program, TotalWork.step, if_neg done]
    rcases solo_works (p := p) (t := t) p.csIter (some t) n with ⟨events, works⟩
    exact Tests.after short (Tests.after works (again done))

/-- The chunks that are missing are added one by one, unless the total is met before. -/
theorem tests_lock (k : Nat)
    (reaches : n + UInt64.ofNat (k * p.csIter.toNat) = p.totalIter.toUInt64) :
    p.Tests t ⟨none, n⟩ .lock := by
  induction k generalizing n with
  | zero =>
      refine tests_round n fun short => absurd (decide_eq_true ?_) short
      rw [Nat.zero_mul] at reaches
      simpa using reaches.symm
  | succ k inductionHypothesis =>
      refine tests_round n fun _ => inductionHypothesis ?_
      rw [← reaches, Nat.add_mul, Nat.one_mul, UInt64.ofNat_add, UInt64.ofNat_uInt32ToNat]
      simp only [UInt64.add_assoc, UInt64.add_comm p.csIter.toUInt64]

/-- From a multiple of the chunk the total is some chunks away, if it is a multiple too. -/
theorem Chunks.missing (chunks : p.Chunks n) (total : p.Chunks p.totalIter.toUInt64) :
    exists k : Nat, n + UInt64.ofNat (k * p.csIter.toNat) = p.totalIter.toUInt64 := by
  rcases chunks with ⟨before, rfl⟩
  rcases total with ⟨all, total⟩
  -- back to zero by going around, and from there all the way
  refine ⟨(2 ^ 64 - 1) * before + all, ?_⟩
  rw [total, ← UInt64.ofNat_add]
  apply UInt64.toNat_inj.mp
  rw [UInt64.toNat_ofNat', UInt64.toNat_ofNat']
  have around : before * p.csIter.toNat + ((2 ^ 64 - 1) * before + all) * p.csIter.toNat =
      2 ^ 64 * (before * p.csIter.toNat) + all * p.csIter.toNat := by
    ring
  rw [around, Nat.mul_add_mod]

theorem Chunks.tests (chunks : p.Chunks n) (total : p.Chunks p.totalIter.toUInt64) :
    p.Tests t ⟨none, n⟩ .lock := by
  rcases chunks.missing total with ⟨k, reaches⟩
  exact tests_lock k reaches

/-! ## No state is stuck -/

/-- What is still to be added, where a thread is adding. -/
theorem tests_of_holds (total : p.Chunks p.totalIter.toUInt64) {lock : Option Tid}
    (holds : Holds pc) (stays : ¬Done pc) (place : At p n pc) : p.Tests t ⟨lock, n⟩ pc := by
  cases pc
  case loadGlobalState =>
    by_cases done : p.workDone n = true
    · refine ⟨[.tested true], ⟨lock, n⟩, .unlockBreak, .cons () ?_ (.refl _ _), by simp⟩
      simp only [program, TotalWork.step, done, if_true]
    · have short : (program Tid p).Solo t ⟨lock, n⟩ .loadGlobalState [.tested false] ⟨lock, n⟩
          (csLoop p.csIter) := by
        refine .cons () ?_ (.refl _ _)
        simp only [program, TotalWork.step, if_neg done]
      rcases solo_works (p := p) (t := t) p.csIter lock n with ⟨events, works⟩
      exact Tests.after short (Tests.after works (Chunks.tests (Chunks.add place) total))
  case csLoad i =>
    rcases place with ⟨nonzero, chunks⟩
    rcases solo_works (p := p) (t := t) i lock n with ⟨events, works⟩
    rw [csLoop, if_neg nonzero] at works
    exact Tests.after works (chunks.tests total)
  case csStore i value =>
    rcases place with ⟨nonzero, rfl, chunks⟩
    rw [← succ_add_pred _ nonzero] at chunks
    have stores : (program Tid p).Solo t ⟨lock, value⟩ (.csStore i value) [.internal]
        ⟨lock, value + 1⟩ (csLoop (i - 1)) := .cons () rfl (.refl _ _)
    rcases solo_works (p := p) (t := t) (i - 1) lock (value + 1) with ⟨events, works⟩
    exact Tests.after stores (Tests.after works (chunks.tests total))
  case unlock =>
    rcases solo_unlock (p := p) (t := t) lock n with ⟨events, returns⟩
    exact Tests.after returns (Chunks.tests place total)
  case unlockBreak => exact absurd trivial stays
  all_goals cases holds

/-- A thread in its loop that does not have the lock, which is free. -/
theorem tests_of_free (total : p.Chunks p.totalIter.toUInt64) (chunks : p.Chunks n)
    (idle : ¬Holds pc) (stays : ¬Done pc) : p.Tests t ⟨none, n⟩ pc := by
  cases pc
  case lock => exact chunks.tests total
  case extraWork i =>
    rcases solo_extraLoop (p := p) (t := t) (i - 1) ⟨none, n⟩ with ⟨events, rest⟩
    exact Tests.after (.cons () rfl rest) (chunks.tests total)
  case left => exact absurd trivial stays
  all_goals exact absurd trivial idle

/-- What a thread can do alone from a reachable state keeps the state from being stuck. -/
theorem Tests.notStuck {t : Tid} {shared : BenchShared Tid} {thread : Tid -> TotalWorkPc}
    {labels : List (Tid × TotalWorkEvent)} (tests : p.Tests t shared (thread t))
    (steps : (system Tid p).Steps s labels ⟨shared, thread⟩) : ¬PermanentlyFalse p s := by
  rcases tests with ⟨events, shared', pc', solo, tested⟩
  rintro ⟨-, never⟩
  refine never _ _ (steps.append (solo.steps thread rfl)) t (List.mem_append_right _ ?_)
  exact List.mem_map_of_mem tested

/-- If some number of chunks makes the total, no reachable state is stuck. -/
theorem Inv.notStuck (inv : Inv p s) (total : p.Chunks p.totalIter.toUInt64) :
    ¬PermanentlyFalse p s := by
  intro stuck
  rcases stuck.1 with ⟨t, stays⟩
  rcases owned : s.shared.lock with _ | u
  · have idle : ¬Holds (s.thread t) := by
      intro holds
      have lock := inv.owner t holds
      rw [owned] at lock
      cases lock
    have tests := tests_of_free (t := t) total (inv.free owned) idle stays
    rw [← owned] at tests
    exact @Tests.notStuck _ _ _ _ _ _ s.thread _ tests (.refl s) stuck
  · have holds := inv.held u owned
    by_cases done : Done (s.thread u)
    · have pc := leaving_of_holds holds done
      have different : t ≠ u := fun same => stays (same ▸ done)
      -- the holder leaves, and the thread that is left finds the total
      have leaves : (program Tid p).Solo u s.shared (s.thread u) [.left]
          ⟨none, s.shared.globalState⟩ .left := by
        rw [pc]
        exact .cons () rfl (.refl _ _)
      have place := inv.places u
      rw [pc] at place
      have tests := tests_of_free (t := t) total place.2 (inv.alone holds different) stays
      rw [← Function.update_of_ne different TotalWorkPc.left s.thread] at tests
      exact tests.notStuck (leaves.steps s.thread rfl) stuck
    · have tests := @tests_of_holds _ _ _ _ _ u total s.shared.lock holds done (inv.places u)
      exact @Tests.notStuck _ _ _ _ _ _ s.thread _ tests (.refl s) stuck

/-- A test that is true has found some number of chunks. -/
theorem Inv.tested (inv : Inv p s) (moved : (system Tid p).next s (t, .tested true) s') :
    p.Chunks p.totalIter.toUInt64 := by
  rcases Program.system_next moved with ⟨_, shared', pc', stepped, -⟩
  have place := inv.places t
  change p.step t s.shared (s.thread t) = _ at stepped
  generalize s.thread t = pc at stepped place
  cases pc <;> simp only [TotalWork.step] at stepped
  case loadGlobalState =>
    split at stepped
    · next done => exact (of_decide_eq_true done) ▸ place
    · cases stepped
  case lock => split at stepped <;> cases stepped
  all_goals cases stepped

/-- If no number of chunks makes the total, no test is ever true. -/
theorem Inv.never (inv : Inv p s) {labels : List (Tid × TotalWorkEvent)}
    (steps : (system Tid p).Steps s labels s') (tested : (t, .tested true) ∈ labels) :
    p.Chunks p.totalIter.toUInt64 := by
  induction steps with
  | refl s => cases tested
  | cons first _ inductionHypothesis =>
      rcases List.mem_cons.mp tested with rfl | later
      · exact inv.tested first
      · exact inductionHypothesis (inv.next first) later

/-- Every state that is reached completes exactly if there is a thread and what
the chunk has in common with the period of the counter divides the total. -/
theorem completes_iff (p : TotalWork) (Tid : Type) [DecidableEq Tid] (numThreads : UInt32)
    (positive : 0 < p.totalIter) :
    (forall trace s, (system Tid p).Run TransitionSystem.unguarded trace s ->
        Completes p numThreads s) <->
      Nonempty Tid ∧ p.csIter.toNat.gcd (2 ^ 64) ∣ p.totalIter.toNat := by
  rw [← chunks_total_iff]
  constructor
  · intro completes
    have initially := completes [] (start Tid) (.start rfl)
    by_cases somebody : Nonempty Tid
    · rcases id somebody with ⟨t⟩
      refine ⟨somebody, ?_⟩
      by_contra never
      exact initially.notStuck ⟨⟨t, id⟩, fun _ _ steps _ tested =>
        never (inv_start.never steps tested)⟩
    · have nothing := initially.expected fun t => absurd ⟨t⟩ somebody
      have zero : p.totalIter.toUInt64 = 0 := nothing.symm
      have zero' : p.totalIter = 0 := UInt32.toNat_inj.mp (by
        rw [← UInt32.toNat_toUInt64, zero]
        rfl)
      rw [zero'] at positive
      exact absurd positive (by decide)
  · rintro ⟨⟨somebody⟩, total⟩ trace s run
    have inv := inv_of_run run
    exact ⟨inv.notStuck total, fun t left => inv.done (t := t) (left ▸ trivial),
      fun left => inv.done (t := somebody) (left somebody ▸ trivial)⟩

/-- Chunks of 25 make 100, whatever the threads do. -/
theorem completes_iff_quarters :
    0 < (⟨100, 25, 0⟩ : TotalWork).totalIter ∧
      forall trace s, (system Nat ⟨100, 25, 0⟩).Run TransitionSystem.unguarded trace s ->
        Completes ⟨100, 25, 0⟩ 8 s :=
  ⟨by decide, (completes_iff ⟨100, 25, 0⟩ Nat 8 (by decide)).mpr ⟨⟨0⟩, by decide⟩⟩

/-- One thread adds chunks of 2 to make 1. -/
theorem permanentlyFalse_chunkOfTwo :
    (system Unit ⟨1, 2, 0⟩).Run TransitionSystem.unguarded [] (start Unit) ∧
      PermanentlyFalse ⟨1, 2, 0⟩ (start Unit) := by
  refine ⟨.start rfl, ⟨(), id⟩, fun _ _ steps _ tested => ?_⟩
  have divides := chunks_total_iff.mp (inv_start.never steps tested)
  exact absurd divides (by decide)

end TotalWork

end Runner
end Autolock
