import Autolock.Stats.Recording

namespace Autolock
namespace Stats

open Data

/-!
# The system call that hands the statistics out

The first call allocates the buffer.  Every other one goes through the CPUs,
copies what each has recorded behind the bytes of the CPUs before it, and resets
the offset.  A copy that fails is noticed, but the loop goes on without copying,
resets the remaining offsets as well, and in the end the error is overwritten by
the number of bytes that should have been copied.  Nor does the loop end with the
array of the offsets.
-/

def enomem : Int := 12
def ebadf : Int := 9
def efault : Int := 14

/-- The system call with its variables.  `user` is the memory of the caller, and
`delivered` lists the CPUs whose copies have been completed, with the bytes. -/
structure Writeout where
  stats : SchedStats
  user : ByteMemory
  ret : Int
  offset : Nat
  delivered : List (Nat × List UInt8)

namespace SchedStats

/-- `__auto_lock_stats_setup`; `memory` tells whether `vzalloc` succeeds. -/
def autoLockStatsSetup (s : SchedStats) (numCpus : Nat) (memory : Bool) : SchedStats × Int :=
  let reset (s : SchedStats) : SchedStats :=
    (List.range numCpus).foldl (fun s cpu => s.setOffset cpu 0) s
  if s.allocated then (reset s, 0)
  else if memory then (reset { s with allocated := true, out := fun _ => 0 }, 0)
  else (reset s, -enomem)

/-- What a CPU has recorded and nobody has been given. -/
def pending (s : SchedStats) (cpu : Nat) : List UInt8 :=
  s.out.read (region cpu) (s.offsets cpu).toNat

end SchedStats

namespace Writeout

/-- `copy_to_user`: the first bytes arrive; the copy fails unless these are all. -/
def copyToUser (w : Writeout) (kbuf cpu copied : Nat) : Writeout :=
  let bytes := w.stats.pending cpu
  { w with
    user := w.user.write (kbuf + w.offset) (bytes.take copied)
    ret := if copied < bytes.length then -efault else w.ret
    delivered := if copied < bytes.length then w.delivered else w.delivered ++ [(cpu, bytes)] }

/-- One round of the loop over the CPUs. -/
def round (kbuf : Nat) (copied : Nat -> Nat) (w : Writeout) (cpu : Nat) : Writeout :=
  let w := { w with stats := w.stats.access cpu }
  let toWrite := (w.stats.offsets cpu).toNat
  let w := if w.ret = 0 then w.copyToUser kbuf cpu (copied cpu) else w
  { w with
    offset := w.offset + toWrite
    stats := w.stats.setOffset cpu 0 }

end Writeout

namespace SchedStats

/-- `__auto_lock_stats_writeout`; `copied` tells how many bytes of each CPU
`copy_to_user` can copy. -/
def autoLockStatsWriteout (s : SchedStats) (numCpus : Nat) (buf : Option Nat) (user : ByteMemory)
    (copied : Nat -> Nat) : Writeout :=
  let w : Writeout := ⟨s, user, 0, 0, []⟩
  if s.allocated = false then { w with ret := -enomem }
  else
    match buf with
    | none => { w with ret := -ebadf }
    | some kbuf =>
        let w := (List.range numCpus).foldl (Writeout.round kbuf copied) w
        { w with ret := w.offset }

/-- `__auto_lock_stats` -/
def autoLockStats (s : SchedStats) (numCpus : Nat) (buf : Option Nat) (memory : Bool)
    (user : ByteMemory) (copied : Nat -> Nat) : Writeout :=
  match buf with
  | none =>
      let (s, ret) := s.autoLockStatsSetup numCpus memory
      ⟨s, user, ret, 0, []⟩
  | some buf => s.autoLockStatsWriteout numCpus (some buf) user copied

end SchedStats

/-! ## A write-out whose copies succeed -/

@[simp] theorem SchedStats.pending_length (s : SchedStats) (cpu : Nat) :
    (s.pending cpu).length = (s.offsets cpu).toNat :=
  ByteMemory.read_length

/-- The bytes of the first CPUs, one after the other. -/
def SchedStats.pendingAll (s : SchedStats) (numCpus : Nat) : List UInt8 :=
  (List.range numCpus).flatMap s.pending

theorem SchedStats.pendingAll_succ (s : SchedStats) (numCpus : Nat) :
    s.pendingAll (numCpus + 1) = s.pendingAll numCpus ++ s.pending numCpus := by
  simp [pendingAll, List.range_succ]

/-- All copies for the first CPUs can be completed. -/
def SchedStats.Copied (s : SchedStats) (numCpus : Nat) (copied : Nat -> Nat) : Prop :=
  forall cpu, cpu < numCpus -> (s.offsets cpu).toNat ≤ copied cpu

namespace Writeout

/-- How far a write-out of `s` has come if everything could be copied so far. -/
structure Delivered (s : SchedStats) (kbuf numCpus : Nat) (w : Writeout) : Prop where
  ret : w.ret = 0
  offset : w.offset = (s.pendingAll numCpus).length
  holds : w.user.Holds kbuf (s.pendingAll numCpus)
  delivered : w.delivered = (List.range numCpus).map fun cpu => (cpu, s.pending cpu)
  out : w.stats.out = s.out
  offsets : forall cpu, w.stats.offsets cpu = if cpu < numCpus then 0 else s.offsets cpu

variable {s : SchedStats} {kbuf numCpus : Nat} {w : Writeout} {copied : Nat -> Nat}

theorem Delivered.round (before : Delivered s kbuf numCpus w)
    (enough : (s.offsets numCpus).toNat ≤ copied numCpus) :
    Delivered s kbuf (numCpus + 1) (w.round kbuf copied numCpus) := by
  have offset : w.stats.offsets numCpus = s.offsets numCpus := by
    rw [before.offsets, if_neg (Nat.lt_irrefl _)]
  have same : (w.stats.access numCpus).pending numCpus = s.pending numCpus := by
    rw [SchedStats.pending, SchedStats.pending, SchedStats.access, before.out, offset]
  have whole : ¬copied numCpus < (s.pending numCpus).length := by
    rw [SchedStats.pending_length]
    exact Nat.not_lt.mpr enough
  have all : (s.pending numCpus).take (copied numCpus) = s.pending numCpus :=
    List.take_of_length_le (Nat.not_lt.mp whole)
  have accessed : (w.stats.access numCpus).offsets numCpus = s.offsets numCpus := offset
  simp only [Writeout.round, before.ret, if_true, copyToUser, same, whole, if_false, all,
    before.offset, accessed]
  exact
    { ret := rfl
      offset := by simp [SchedStats.pendingAll_succ]
      holds := by
        rw [SchedStats.pendingAll_succ, ByteMemory.holds_append]
        exact ⟨before.holds.write (Or.inl (Nat.le_refl _)), ByteMemory.holds_write⟩
      delivered := by rw [before.delivered, List.range_succ, List.map_append, List.map_singleton]
      out := before.out
      offsets := by
        intro cpu
        by_cases here : cpu = numCpus
        · subst here
          simp
        · have order : cpu < numCpus + 1 <-> cpu < numCpus := by omega
          simp only [SchedStats.setOffset_offsets, Function.update_of_ne here]
          exact (before.offsets cpu).trans (by simp only [order]) }

/-- If all copies can be completed, everything is delivered. -/
theorem delivered_foldl (s : SchedStats) (kbuf : Nat) (user : ByteMemory)
    (enough : s.Copied numCpus copied) :
    Delivered s kbuf numCpus
      ((List.range numCpus).foldl (Writeout.round kbuf copied) ⟨s, user, 0, 0, []⟩) := by
  induction numCpus with
  | zero => exact ⟨rfl, rfl, rfl, rfl, rfl, fun _ => rfl⟩
  | succ numCpus inductionHypothesis =>
      rw [List.range_succ, List.foldl_append]
      exact (inductionHypothesis fun cpu less => enough cpu (Nat.lt_succ_of_lt less)).round
        (enough numCpus (Nat.lt_succ_self _))

end Writeout

/-- The loop accesses the offsets of all these CPUs, whatever is copied. -/
theorem Writeout.overrun_foldl (kbuf : Nat) (copied : Nat -> Nat) (w : Writeout) (numCpus : Nat) :
    ((List.range numCpus).foldl (Writeout.round kbuf copied) w).stats.overrun =
      (w.stats.overrun || decide (16 < numCpus)) := by
  induction numCpus with
  | zero => simp
  | succ numCpus inductionHypothesis =>
      have round : forall (w : Writeout) (cpu : Nat), (w.round kbuf copied cpu).stats.overrun =
          (w.stats.overrun || !decide (SchedStats.HasSlot cpu)) := by
        intro w cpu
        simp only [Writeout.round]
        split <;> simp [Writeout.copyToUser, SchedStats.setOffset, SchedStats.access]
      rw [List.range_succ, List.foldl_append, List.foldl_cons, List.foldl_nil, round,
        inductionHypothesis, Bool.or_assoc, ← decide_not, ← Bool.decide_or]
      congr 2
      rw [SchedStats.hasSlot_iff, eq_iff_iff]
      omega

/-! ## Failures -/

/-- What a caller may rely on, whichever copies fail: an error is reported, no CPU
loses what has not been delivered, a count counts bytes that are there, and nothing
behind the offsets is taken for one. -/
structure FailsCleanly (s : SchedStats) (numCpus kbuf : Nat) (copied : Nat -> Nat) (w : Writeout) :
    Prop where
  error : ¬s.Copied numCpus copied -> w.ret < 0
  kept : ¬s.Copied numCpus copied -> forall cpu, cpu < numCpus ->
    (forall bytes, (cpu, bytes) ∉ w.delivered) -> w.stats.offsets cpu = s.offsets cpu
  counted : 0 ≤ w.ret ->
    (w.delivered.flatMap fun copy => copy.2).length = w.ret ∧
      w.user.Holds kbuf (w.delivered.flatMap fun copy => copy.2) ∧
      forall cpu bytes, (cpu, bytes) ∈ w.delivered -> bytes = s.pending cpu
  inBounds : w.stats.overrun = false

/-- A write-out fails cleanly exactly if it cannot fail in a copy: there is no
buffer, or every CPU's bytes can be copied and every CPU has its offset in the array. -/
theorem autoLockStats_failsCleanly_iff (s : SchedStats) (numCpus kbuf : Nat) (memory : Bool)
    (user : ByteMemory) (copied : Nat -> Nat) :
    FailsCleanly s numCpus kbuf copied (s.autoLockStats numCpus (some kbuf) memory user copied) <->
      s.overrun = false ∧ (s.allocated = false ∨ numCpus ≤ 16 ∧ s.Copied numCpus copied) := by
  cases allocated : s.allocated with
  | false =>
      simp only [SchedStats.autoLockStats, SchedStats.autoLockStatsWriteout, allocated, if_true,
        true_or, and_true]
      have negative : -enomem < 0 := by decide
      exact ⟨fun clean => clean.inBounds, fun fine => ⟨fun _ => negative, fun _ _ _ _ => rfl,
        fun count => absurd negative (Int.not_lt.mpr count), fine⟩⟩
  | true =>
      simp only [SchedStats.autoLockStats, SchedStats.autoLockStatsWriteout, allocated,
        Bool.true_eq_false, if_false, false_or]
      have overrun := Writeout.overrun_foldl kbuf copied ⟨s, user, 0, 0, []⟩ numCpus
      constructor
      · intro clean
        have inBounds := overrun.symm.trans clean.inBounds
        rw [Bool.or_eq_false_iff, decide_eq_false_iff_not, Nat.not_lt] at inBounds
        refine ⟨inBounds.1, inBounds.2, ?_⟩
        by_contra failing
        exact absurd (clean.error failing) (Int.not_lt.mpr (Int.natCast_nonneg _))
      · rintro ⟨fine, few, enough⟩
        have delivered := Writeout.delivered_foldl s kbuf user enough
        refine ⟨fun failing => absurd enough failing, fun failing => absurd enough failing, ?_,
          overrun.trans (by simp [fine, Nat.not_lt.mpr few])⟩
        intro _
        have bytes : ((List.range numCpus).map fun cpu => (cpu, s.pending cpu)).flatMap
            (fun copy => copy.2) = s.pendingAll numCpus := by
          rw [List.flatMap_map]
          rfl
        rw [delivered.delivered, bytes, delivered.offset]
        refine ⟨rfl, delivered.holds, ?_⟩
        intro cpu copy member
        rcases List.mem_map.mp member with ⟨cpu', _, same⟩
        cases same
        rfl

/-- Two CPUs have recorded a slice each. -/
def twoSlices : SchedStats where
  allocated := true
  out := fun _ => 0
  offsets := fun _ => 28
  written := []
  overrun := false

/-- The caller's buffer cannot be written.  Nothing arrives, 56 bytes are reported
and both slices are gone. -/
theorem autoLockStats_loses :
    let w := twoSlices.autoLockStats 2 (some 0) true (fun _ => 0) (fun _ => 0)
    w.ret = 56 ∧ w.delivered = [] ∧ w.stats.offsets 0 = 0 ∧ w.stats.offsets 1 = 0 ∧
      ¬FailsCleanly twoSlices 2 0 (fun _ => 0) w := by
  refine ⟨rfl, rfl, rfl, rfl, fun clean => ?_⟩
  have failing : ¬twoSlices.Copied 2 fun _ => 0 := fun all => absurd (all 0 (by decide)) (by decide)
  exact absurd (clean.error failing) (by decide)

end Stats
end Autolock
