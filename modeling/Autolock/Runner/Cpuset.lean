import Mathlib.Data.Finset.Sort

namespace Autolock
namespace Runner

/-!
# Sets of CPUs and their topology

`cpuset_t` is glibc's `cpu_set_t`: setting a CPU beyond its size does nothing.
The topology is what the header generated for a machine tells of it.
-/

/-- A `die_assert` that has not held. -/
inductive Died where
  | dieAssert
  deriving DecidableEq, Repr

def dieAssert (condition : Bool) : Except Died Unit :=
  if condition then .ok () else .error .dieAssert

/-- `CPU_SETSIZE` -/
def cpuSetsize : Nat := 1024

/-- `cpuset_t` -/
structure Cpuset where
  cpus : Finset Nat
  fits : forall cpu, cpu ∈ cpus -> cpu < cpuSetsize
  deriving DecidableEq

@[ext] theorem Cpuset.ext {c d : Cpuset} (same : c.cpus = d.cpus) : c = d := by
  cases c
  cases d
  cases same
  rfl

def csetZero : Cpuset := ⟨∅, fun cpu member => absurd member (Finset.notMem_empty cpu)⟩

/-- `CPU_SET` -/
def csetSet (cpu : Nat) (c : Cpuset) : Cpuset :=
  if fits : cpu < cpuSetsize then
    ⟨insert cpu c.cpus, Finset.forall_mem_insert .. |>.mpr ⟨fits, c.fits⟩⟩
  else c

/-- `CPU_CLR` -/
def csetClr (cpu : Nat) (c : Cpuset) : Cpuset :=
  ⟨c.cpus.erase cpu, fun other member => c.fits other (Finset.mem_of_mem_erase member)⟩

/-- `CPU_ISSET` -/
def csetIsset (cpu : Nat) (c : Cpuset) : Bool := cpu ∈ c.cpus

/-- `CPU_COUNT` -/
def csetCount (c : Cpuset) : Nat := c.cpus.card

/-- `CPU_EQUAL` -/
def csetEqual (c d : Cpuset) : Bool := c.cpus = d.cpus

/-- `CPU_OR` -/
def csetOr (c d : Cpuset) : Cpuset :=
  ⟨c.cpus ∪ d.cpus, fun cpu member =>
    (Finset.mem_union.mp member).elim (c.fits cpu) (d.fits cpu)⟩

/-- `CPU_AND` -/
def csetAnd (c d : Cpuset) : Cpuset :=
  ⟨c.cpus ∩ d.cpus, fun cpu member => c.fits cpu (Finset.mem_of_mem_inter_left member)⟩

def csetOrEq (dst src : Cpuset) : Cpuset := csetOr dst src

def csetEmpty (c : Cpuset) : Bool := csetEqual csetZero c

def csetTest (lhs rhs : Cpuset) : Bool := !csetEmpty (csetAnd lhs rhs)

/-- `cset_first`; `none` stands for -1. -/
def csetFirst (ncpus : Nat) (c : Cpuset) : Except Died (Option Nat) := do
  dieAssert (!csetEmpty c)
  return (List.range ncpus).find? fun i => csetIsset i c

def csetCopyFirst (ncpus : Nat) (rhs : Cpuset) : Except Died Cpuset := do
  match <- csetFirst ncpus rhs with
  | none => throw .dieAssert
  | some cpu => return csetSet cpu csetZero

def csetClrFirst (ncpus : Nat) (c : Cpuset) : Except Died Cpuset := do
  match <- csetFirst ncpus c with
  | none => throw .dieAssert
  | some cpu => return csetClr cpu c

/-- `cset_all`: whole bytes first, then the CPUs of the last one. -/
def csetAll (nprocs : Nat) : Cpuset :=
  let bytes := nprocs / 8 * 8
  (List.range' bytes (nprocs - bytes)).foldl (fun c i => csetSet i c)
    ⟨(Finset.range bytes).filter (· < cpuSetsize), fun _ member => (Finset.mem_filter.mp member).2⟩

theorem dieAssert_of {condition : Bool} (holds : condition = true) : dieAssert condition = .ok () :=
  if_pos holds

section lemmas

variable {cpu : Nat} {c d : Cpuset}

theorem csetIsset_iff : csetIsset cpu c = true <-> cpu ∈ c.cpus :=
  decide_eq_true_iff

theorem csetEmpty_iff : csetEmpty c = true <-> c.cpus = ∅ := by
  rw [csetEmpty, csetEqual, decide_eq_true_iff]
  exact eq_comm

theorem csetTest_eq_false_iff : csetTest c d = false <-> Disjoint c.cpus d.cpus := by
  rw [csetTest, Bool.not_eq_false', csetEmpty_iff, Finset.disjoint_iff_inter_eq_empty]
  rfl

theorem cpus_csetSet (fits : cpu < cpuSetsize) : (csetSet cpu c).cpus = insert cpu c.cpus := by
  rw [csetSet, dif_pos fits]

end lemmas

/-! ## The topology -/

/-- The CPUs below `numCpus` fall into groups of siblings, and each group has one
CPU that stands for its core. -/
structure Topology where
  numCpus : Nat
  /-- `I_cpu_to_smt_cpu_map` -/
  smtCpuMap : Nat -> Cpuset
  /-- `I_cpu_to_phys_core` -/
  physCore : Nat -> Nat
  itself : forall i, i < numCpus -> i ∈ (smtCpuMap i).cpus
  below : forall i, i < numCpus -> forall j, j ∈ (smtCpuMap i).cpus -> j < numCpus
  sibling : forall i, i < numCpus -> forall j, j ∈ (smtCpuMap i).cpus -> smtCpuMap j = smtCpuMap i
  core : forall i, i < numCpus -> physCore i ∈ (smtCpuMap i).cpus
  sameCore : forall i, i < numCpus -> forall j, j ∈ (smtCpuMap i).cpus -> physCore j = physCore i

namespace Topology

def getLogicalCpuIds (topology : Topology) (physicalCpuId : Nat) : Except Died Cpuset := do
  dieAssert (physicalCpuId < topology.numCpus)
  return topology.smtCpuMap physicalCpuId

def getPhysCpuId (topology : Topology) (logicalCpuId : Nat) : Except Died Nat := do
  dieAssert (logicalCpuId < topology.numCpus)
  return topology.physCore logicalCpuId

variable {topology : Topology} {i : Nat}

theorem getLogicalCpuIds_eq (below : i < topology.numCpus) :
    topology.getLogicalCpuIds i = .ok (topology.smtCpuMap i) := by
  rw [getLogicalCpuIds, dieAssert_of (decide_eq_true below)]
  rfl

theorem getPhysCpuId_eq (below : i < topology.numCpus) :
    topology.getPhysCpuId i = .ok (topology.physCore i) := by
  rw [getPhysCpuId, dieAssert_of (decide_eq_true below)]
  rfl

theorem fits (topology : Topology) (below : i < topology.numCpus) : i < cpuSetsize :=
  (topology.smtCpuMap i).fits i (topology.itself i below)

end Topology

/-- The generated header for a laptop with eight CPUs. -/
def eightConf : Topology where
  numCpus := 8
  smtCpuMap := fun cpu => ⟨{cpu &&& 3, (cpu &&& 3) ||| 4}, by
    have small : cpu &&& 3 < 2 ^ 2 := Nat.and_lt_two_pow cpu (by decide)
    have or : (cpu &&& 3) ||| 4 < 2 ^ 3 :=
      Nat.or_lt_two_pow (Nat.lt_trans small (by decide)) (by decide)
    simp only [Finset.mem_insert, Finset.mem_singleton, forall_eq_or_imp, forall_eq, cpuSetsize]
    omega⟩
  physCore := fun cpu => cpu &&& 3
  itself := by decide
  below := by decide
  sibling := by decide
  core := by decide
  sameCore := by decide

end Runner
end Autolock
