import Autolock.Runner.AllowableCset

namespace Autolock
namespace Runner

/-!
# The CPU of each thread of a run

`I_run` takes the first CPU of a working set for each thread that it creates,
and fills the set again when it is empty.  The set is carried over from one
trial to the next, so that the threads of the whole run go around.
-/

/-- `cur_cset`, and the affinity in the attribute with which threads are created. -/
structure PinState where
  curCset : Cpuset
  attr : Option Cpuset
  deriving DecidableEq

/-- The next set to pin a thread to, and what is left of the working set. -/
def takeNextCpu (ncpus : Nat) (allowableCset curCset : Cpuset) : Except Died (Cpuset × Cpuset) := do
  let curCset := if csetEmpty curCset then allowableCset else curCset
  let cset <- csetCopyFirst ncpus curCset
  dieAssert (!csetEmpty cset)
  let curCset <- csetClrFirst ncpus curCset
  return (cset, curCset)

/-- Create the threads of one trial: the affinity of each of them. -/
def createThreads (ncpus : Nat) (withCpuPinning : Int) (allowableCset : Cpuset) :
    Nat -> PinState -> Except Died (List (Option Cpuset) × PinState)
  | 0, s => return ([], s)
  | numThreads + 1, s => do
      let s' <-
        if withCpuPinning ≠ 0 then do
          let (cset, curCset) <- takeNextCpu ncpus allowableCset s.curCset
          pure ⟨curCset, some cset⟩
        else pure s
      let (affinities, s'') <- createThreads ncpus withCpuPinning allowableCset numThreads s'
      return (s'.attr :: affinities, s'')

def runTrials (ncpus : Nat) (withCpuPinning : Int) (allowableCset : Cpuset) (numThreads : Nat) :
    Nat -> PinState -> Except Died (List (List (Option Cpuset)))
  | 0, _ => return []
  | numTrials + 1, s => do
      let (affinities, s') <- createThreads ncpus withCpuPinning allowableCset numThreads s
      let trials <- runTrials ncpus withCpuPinning allowableCset numThreads numTrials s'
      return affinities :: trials

/-- `I_run` with the set that `set_allowable_cset` has left: the affinities of the
threads of each trial. -/
def iRunWith (ncpus : Nat) (withCpuPinning : Int) (allowableCset : Cpuset)
    (numTrials numThreads : UInt32) : Except Died (List (List (Option Cpuset))) := do
  dieAssert (csetEmpty allowableCset == decide (withCpuPinning = 0))
  runTrials ncpus withCpuPinning allowableCset numThreads.toNat numTrials.toNat ⟨csetZero, none⟩

/-- The parameters of a run that choose the CPUs. -/
structure RunParams where
  numTrials : UInt32
  numThreads : UInt32
  cpuList : Option Util.CString
  numCpus : Int
  pinCpus : UInt32
  preferHyperThreads : UInt32

def iRun (topology : Topology) (passes : Nat) (params : RunParams) :
    Option (Except Died (List (List (Option Cpuset)))) :=
  (setAllowableCset topology passes params.cpuList params.numCpus params.pinCpus
    params.preferHyperThreads).map fun result => do
      let (withCpuPinning, allowableCset) <- result
      iRunWith topology.numCpus withCpuPinning allowableCset params.numTrials params.numThreads

/-! ## The first CPU of a set -/

section first

variable {c : Cpuset} {cpu ncpus : Nat} {cpus : List Nat}

theorem not_csetEmpty (sorted : c.cpus.sort = cpu :: cpus) : csetEmpty c = false := by
  refine Bool.eq_false_iff.mpr fun empty => ?_
  rw [csetEmpty_iff.mp empty, Finset.sort_empty] at sorted
  cases sorted

theorem csetFirst_eq (sorted : c.cpus.sort = cpu :: cpus) (below : cpu < ncpus) :
    csetFirst ncpus c = .ok (some cpu) := by
  have member : cpu ∈ c.cpus := by
    rw [← Finset.mem_sort (· ≤ ·), sorted]
    exact List.mem_cons_self ..
  have least : forall j, j ∈ c.cpus -> cpu ≤ j := by
    intro j other
    have ordered := Finset.pairwise_sort c.cpus (· ≤ ·)
    rw [sorted] at ordered
    rw [← Finset.mem_sort (· ≤ ·), sorted] at other
    rcases List.mem_cons.mp other with rfl | later
    · exact Nat.le_refl j
    · exact (List.pairwise_cons.mp ordered).1 j later
  have found : ((List.range ncpus).find? fun i => csetIsset i c) = some cpu := by
    rw [List.find?_range_eq_some]
    refine ⟨csetIsset_iff.mpr member, List.mem_range.mpr below, fun j less => ?_⟩
    have absent : j ∉ c.cpus := fun other => Nat.not_le.mpr less (least j other)
    simpa [csetIsset] using absent
  rw [csetFirst, not_csetEmpty sorted, found]
  rfl

theorem csetCopyFirst_eq (sorted : c.cpus.sort = cpu :: cpus) (below : cpu < ncpus) :
    csetCopyFirst ncpus c = .ok (csetSet cpu csetZero) := by
  rw [csetCopyFirst, csetFirst_eq sorted below]
  rfl

theorem csetClrFirst_eq (sorted : c.cpus.sort = cpu :: cpus) (below : cpu < ncpus) :
    csetClrFirst ncpus c = .ok (csetClr cpu c) := by
  rw [csetClrFirst, csetFirst_eq sorted below]
  rfl

theorem sort_csetClr (sorted : c.cpus.sort = cpu :: cpus) : (csetClr cpu c).cpus.sort = cpus := by
  have nodup := Finset.sort_nodup c.cpus (· ≤ ·)
  have ordered := Finset.pairwise_sort c.cpus (· ≤ ·)
  rw [sorted] at nodup ordered
  have rest : (csetClr cpu c).cpus = cpus.toFinset := by
    change c.cpus.erase cpu = _
    rw [← Finset.sort_toFinset c.cpus (· ≤ ·), sorted, List.toFinset_cons]
    refine Finset.erase_insert fun member => ?_
    exact (List.nodup_cons.mp nodup).1 (List.mem_toFinset.mp member)
  rw [rest, List.toFinset_sort _ (List.nodup_cons.mp nodup).2]
  exact (List.pairwise_cons.mp ordered).2

end first

/-! ## Going around -/

section around

variable {ncpus numThreads numTrials created : Nat} {withCpuPinning : Int}
  {allowable curCset : Cpuset}

/-- The CPU of the thread before which so many have been created. -/
def turn (allowable : Cpuset) (created : Nat) : Option Nat :=
  allowable.cpus.sort[created % allowable.cpus.card]?

/-- The working set, after so many threads, is the end of the allowable set that
has not been used in this round; it may be empty instead of full. -/
def Standing (allowable : Cpuset) (created : Nat) (curCset : Cpuset) : Prop :=
  (if csetEmpty curCset then allowable else curCset).cpus.sort =
    allowable.cpus.sort.drop (created % allowable.cpus.card)

theorem standing_start : Standing allowable 0 csetZero := by
  rw [Standing, Nat.zero_mod]
  rfl

theorem turn_isSome (nonempty : allowable.cpus ≠ ∅) (created : Nat) :
    exists cpu, turn allowable created = some cpu ∧ cpu ∈ allowable.cpus ∧
      allowable.cpus.sort.drop (created % allowable.cpus.card) =
        cpu :: allowable.cpus.sort.drop (created % allowable.cpus.card + 1) := by
  have less : created % allowable.cpus.card < allowable.cpus.sort.length := by
    rw [Finset.length_sort]
    exact Nat.mod_lt _ (Finset.card_pos.mpr (Finset.nonempty_iff_ne_empty.mpr nonempty))
  exact ⟨_, List.getElem?_eq_getElem less, (Finset.mem_sort _).mp (List.getElem_mem less),
    List.drop_eq_getElem_cons less⟩

/-- What is left after the first CPU has been taken is the rest of the round. -/
theorem Standing.next {rest : Cpuset} (nonempty : allowable.cpus ≠ ∅)
    (left : rest.cpus.sort = allowable.cpus.sort.drop (created % allowable.cpus.card + 1)) :
    Standing allowable (created + 1) rest := by
  have some : 0 < allowable.cpus.card :=
    Finset.card_pos.mpr (Finset.nonempty_iff_ne_empty.mpr nonempty)
  have less := Nat.mod_lt created some
  have mod : (created + 1) % allowable.cpus.card =
      (created % allowable.cpus.card + 1) % allowable.cpus.card := by
    rw [Nat.mod_add_mod]
  rw [Standing, mod]
  rcases Nat.lt_or_eq_of_le (Nat.succ_le_of_lt less) with within | last
  · have full : csetEmpty rest = false := by
      refine Bool.eq_false_iff.mpr fun empty => ?_
      rw [csetEmpty_iff.mp empty, Finset.sort_empty] at left
      have short := congrArg List.length left
      rw [List.length_nil, List.length_drop, Finset.length_sort] at short
      omega
    rw [full, Nat.mod_eq_of_lt within]
    exact left
  · have empty : csetEmpty rest = true := by
      rw [csetEmpty_iff, ← Finset.card_eq_zero, ← Finset.length_sort (· ≤ ·), left,
        List.length_drop, Finset.length_sort]
      omega
    rw [if_pos empty]
    have whole : (created % allowable.cpus.card + 1) % allowable.cpus.card = 0 := by
      rw [show created % allowable.cpus.card + 1 = allowable.cpus.card from last, Nat.mod_self]
    rw [whole, List.drop_zero]

theorem takeNextCpu_turn (nonempty : allowable.cpus ≠ ∅)
    (below : forall cpu, cpu ∈ allowable.cpus -> cpu < ncpus)
    (standing : Standing allowable created curCset) :
    exists cpu rest, turn allowable created = some cpu ∧ cpu ∈ allowable.cpus ∧
      takeNextCpu ncpus allowable curCset = .ok (csetSet cpu csetZero, rest) ∧
      Standing allowable (created + 1) rest := by
  rcases turn_isSome nonempty created with ⟨cpu, found, member, split⟩
  have sorted := standing.trans split
  have one : csetEmpty (csetSet cpu csetZero) = false := by
    refine Bool.eq_false_iff.mpr fun empty => ?_
    have none := csetEmpty_iff.mp empty
    rw [cpus_csetSet (allowable.fits cpu member)] at none
    exact Finset.insert_ne_empty _ _ none
  have holds : dieAssert (!csetEmpty (csetSet cpu csetZero)) = .ok () :=
    dieAssert_of (by rw [one]; rfl)
  refine ⟨cpu, _, found, member, ?_, .next nonempty (sort_csetClr sorted)⟩
  rw [takeNextCpu]
  simp only [csetCopyFirst_eq sorted (below cpu member), csetClrFirst_eq sorted (below cpu member),
    bind, Except.bind, holds]
  rfl

/-- The threads are pinned, each to the CPU whose turn it is. -/
def Pinned (allowable : Cpuset) (affinity : Option Cpuset) (created : Nat) : Prop :=
  exists cset cpu, affinity = some cset ∧ turn allowable created = some cpu ∧ cset.cpus = {cpu}

theorem createThreads_pinned (pins : withCpuPinning ≠ 0) (nonempty : allowable.cpus ≠ ∅)
    (below : forall cpu, cpu ∈ allowable.cpus -> cpu < ncpus) {s : PinState}
    (standing : Standing allowable created s.curCset) :
    exists affinities s', createThreads ncpus withCpuPinning allowable numThreads s =
        .ok (affinities, s') ∧
      List.Forall₂ (Pinned allowable) affinities (List.range' created numThreads) ∧
      Standing allowable (created + numThreads) s'.curCset := by
  induction numThreads generalizing created s with
  | zero => exact ⟨[], s, rfl, .nil, standing⟩
  | succ numThreads inductionHypothesis =>
      rcases takeNextCpu_turn nonempty below standing with ⟨cpu, rest, found, member, takes, standing'⟩
      rcases inductionHypothesis (s := ⟨rest, some (csetSet cpu csetZero)⟩) standing' with
        ⟨affinities, s', creates, pinned, last⟩
      have mine : Pinned allowable (some (csetSet cpu csetZero)) created :=
        ⟨_, cpu, rfl, found, by rw [cpus_csetSet (allowable.fits cpu member)]; rfl⟩
      refine ⟨_ :: affinities, s', ?_, .cons mine pinned, ?_⟩
      · rw [createThreads, if_pos pins, takes]
        change (createThreads ncpus withCpuPinning allowable numThreads _ >>= _) = _
        rw [creates]
        rfl
      · rw [Nat.add_right_comm] at last
        exact last

theorem runTrials_pinned (pins : withCpuPinning ≠ 0) (nonempty : allowable.cpus ≠ ∅)
    (below : forall cpu, cpu ∈ allowable.cpus -> cpu < ncpus) {s : PinState}
    (standing : Standing allowable created s.curCset) :
    exists trials, runTrials ncpus withCpuPinning allowable numThreads numTrials s = .ok trials ∧
      trials.length = numTrials ∧ (forall trial, trial ∈ trials -> trial.length = numThreads) ∧
      List.Forall₂ (Pinned allowable) trials.flatten
        (List.range' created (numTrials * numThreads)) := by
  induction numTrials generalizing created s with
  | zero =>
      refine ⟨[], rfl, rfl, fun trial member => (List.not_mem_nil member).elim, ?_⟩
      rw [Nat.zero_mul]
      exact .nil
  | succ numTrials inductionHypothesis =>
      rcases @createThreads_pinned ncpus numThreads created _ _ pins nonempty below _ standing with
        ⟨affinities, s', creates, pinned, standing'⟩
      rcases inductionHypothesis standing' with ⟨trials, runs, length, each, rest⟩
      refine ⟨affinities :: trials, ?_, ?_, ?_, ?_⟩
      · rw [runTrials, creates]
        change (runTrials ncpus withCpuPinning allowable numThreads numTrials s' >>= _) = _
        rw [runs]
        rfl
      · rw [List.length_cons, length]
      · intro trial member
        rcases List.mem_cons.mp member with rfl | later
        · rw [pinned.length_eq, List.length_range']
        · exact each trial later
      · rw [List.flatten_cons, Nat.succ_mul, Nat.add_comm (numTrials * numThreads),
          ← List.range'_append_1]
        exact List.rel_append pinned rest

/-- The threads of all trials go around the allowable set in ascending order. -/
theorem iRunWith_roundRobin (ncpus : Nat) (withCpuPinning : Int) (pins : withCpuPinning ≠ 0)
    (allowable : Cpuset) (nonempty : allowable.cpus ≠ ∅)
    (below : forall cpu, cpu ∈ allowable.cpus -> cpu < ncpus) (numTrials numThreads : UInt32) :
    exists trials, iRunWith ncpus withCpuPinning allowable numTrials numThreads = .ok trials ∧
      trials.length = numTrials.toNat ∧
      (forall trial, trial ∈ trials -> trial.length = numThreads.toNat) ∧
      forall n, n < numTrials.toNat * numThreads.toNat -> exists (cset : Cpuset) (cpu : Nat),
        trials.flatten[n]? = some (some cset) ∧
        allowable.cpus.sort[n % allowable.cpus.card]? = some cpu ∧ cset.cpus = {cpu} := by
  rcases @runTrials_pinned ncpus numThreads.toNat numTrials.toNat 0 _ _ pins nonempty below
    ⟨csetZero, none⟩ standing_start with ⟨trials, runs, length, each, pinned⟩
  refine ⟨trials, ?_, length, each, fun n less => ?_⟩
  · have full : csetEmpty allowable = false :=
      Bool.eq_false_iff.mpr fun empty => nonempty (csetEmpty_iff.mp empty)
    rw [iRunWith, full, decide_eq_false pins]
    exact runs
  · have length := pinned.length_eq
    rw [List.length_range'] at length
    have here := List.Forall₂.get pinned (i := n) (by omega) (by rw [List.length_range']; exact less)
    simp only [List.get_eq_getElem, List.getElem_range', Nat.zero_add, Nat.one_mul] at here
    rcases here with ⟨cset, cpu, affinity, found, alone⟩
    exact ⟨cset, cpu, by rw [List.getElem?_eq_getElem (by omega), affinity], found, alone⟩

/-- Four threads in two trials, on three CPUs of eight. -/
def sparse : Cpuset := ⟨{1, 5, 6}, by decide⟩

theorem iRunWith_roundRobin_sparse :
    exists trials, iRunWith 8 1 sparse 2 2 = .ok trials ∧ trials.length = 2 ∧
      (forall trial, trial ∈ trials -> trial.length = 2) ∧
      forall n, n < 4 -> exists (cset : Cpuset) (cpu : Nat), trials.flatten[n]? = some (some cset) ∧
        sparse.cpus.sort[n % sparse.cpus.card]? = some cpu ∧ cset.cpus = {cpu} :=
  iRunWith_roundRobin 8 1 (by decide) sparse (by decide) (by decide) 2 2

example : (iRunWith 8 1 sparse 2 2).map (fun trials => trials.flatten.map (·.map Cpuset.cpus)) =
    .ok [some {1}, some {5}, some {6}, some {1}] := by
  decide

end around

end Runner
end Autolock
