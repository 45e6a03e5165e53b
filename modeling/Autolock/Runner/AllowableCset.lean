import Autolock.Data.Loop
import Autolock.Runner.Cpuset
import Autolock.Util.Strtol

namespace Autolock
namespace Runner

open Data Util

/-!
# The CPUs that the benchmark may use

An explicit list of CPUs comes first, then a number of CPUs, then all of them.
A number of CPUs is filled with whole groups of siblings, the last one trimmed,
or with one CPU for each core before any second one.

The two loops without a bound in the source are run with a bound on their passes.
-/

/-- One pass of the loop of `cpu_list_to_cpuset`. -/
def cpuListPass (nprocs : Nat) : CString × Cpuset -> Pass (CString × Cpuset) Cpuset
  | (cpuList, cset) =>
      let (value, nextC) := strtol cpuList 10
      if nextC = cpuList then .done cset
      else
        let cpu := UInt32.ofInt value
        let cset' := if cpu.toNat < nprocs then csetSet cpu.toNat cset else cset
        match nextC with
        | [] => .done cset'
        | _ :: rest => .again (rest, cset')

def shouldPinCpus (cpuList : Option CString) (numCpus : Int) (pinCpus : UInt32) : Bool :=
  cpuList.isSome || numCpus > 0 || pinCpus != 0

/-! ## Groups of siblings -/

/-- The variables of the first loop. -/
structure SiblingLoop where
  cset : Cpuset
  csetSiblings : Cpuset
  numSet : Int
  numCpus : Int

/-- Add the groups of these CPUs, one after the other, up to the one that is too big. -/
def addSiblings (topology : Topology) : List Nat -> SiblingLoop -> Except Died SiblingLoop
  | [], s => return s
  | i :: is, s =>
      if csetIsset i s.cset then addSiblings topology is s
      else do
        let csetSiblings <- topology.getLogicalCpuIds i
        let numSet : Int := csetCount csetSiblings
        let s' := { s with csetSiblings := csetSiblings, numSet := numSet }
        if numSet ≥ s'.numCpus then return s'
        else
          dieAssert (!csetTest csetSiblings s'.cset)
          addSiblings topology is
            { s' with numCpus := s'.numCpus - numSet, cset := csetOrEq s'.cset csetSiblings }

/-- Clear the first `numSet` of these CPUs that are in the group. -/
def trimSiblings : List Nat -> Int -> Cpuset -> Cpuset
  | [], _, csetSiblings => csetSiblings
  | i :: is, numSet, csetSiblings =>
      if numSet = 0 then csetSiblings
      else if csetIsset i csetSiblings then trimSiblings is (numSet - 1) (csetClr i csetSiblings)
      else trimSiblings is numSet csetSiblings

def preferHyperThreadsCset (topology : Topology) (numCpus : Int) : Except Died Cpuset := do
  let cpus := List.range topology.numCpus
  let s <- addSiblings topology cpus ⟨csetZero, csetZero, numCpus, numCpus⟩
  dieAssert (!csetTest s.csetSiblings s.cset)
  return csetOrEq s.cset (trimSiblings cpus (s.numSet - s.numCpus) s.csetSiblings)

/-! ## One CPU for each core first -/

/-- The variables of the outer loop. -/
structure CoreLoop where
  cset : Cpuset
  numCpus : Int
  iterCnt : Nat

/-- The inner loop, over these CPUs; it leaves the outer one once enough CPUs are set. -/
def coreIter (topology : Topology) : List Nat -> CoreLoop ->
    Except Died (Pass CoreLoop Cpuset)
  | [], s => return .again { s with iterCnt := 1 }
  | i :: is, s =>
      if csetIsset i s.cset then coreIter topology is s
      else do
        let physId <- topology.getPhysCpuId i
        if i = physId ∨ s.iterCnt ≠ 0 then
          let cset := csetSet i s.cset
          if s.numCpus - 1 = 0 then return .done cset
          else coreIter topology is { s with cset := cset, numCpus := s.numCpus - 1 }
        else coreIter topology is s

def corePass (topology : Topology) (s : CoreLoop) : Pass CoreLoop (Except Died Cpuset) :=
  match coreIter topology (List.range topology.numCpus) s with
  | .error died => .done (.error died)
  | .ok (.again s') => .again s'
  | .ok (.done cset) => .done (.ok cset)

/-! ## The function -/

/-- `set_allowable_cset`: what it returns and the set; `none` if the passes do not suffice. -/
def setAllowableCset (topology : Topology) (passes : Nat) (cpuList : Option CString)
    (numCpus : Int) (pinCpus preferHyperThreads : UInt32) : Option (Except Died (Int × Cpuset)) :=
  if !shouldPinCpus cpuList numCpus pinCpus then some (.ok (0, csetZero))
  else match cpuList with
  | some cpuList =>
      (loop (cpuListPass topology.numCpus) passes (cpuList, csetZero)).map fun cset => do
        dieAssert (!csetEmpty cset)
        return (1, cset)
  | none =>
      if numCpus ≤ 0 then some (.ok (1, csetAll topology.numCpus))
      else if numCpus ≥ topology.numCpus then some (.ok (1, csetAll topology.numCpus))
      else if preferHyperThreads ≠ 0 then
        some do
          let cset <- preferHyperThreadsCset topology numCpus
          return (1, cset)
      else
        (loop (corePass topology) passes ⟨csetZero, numCpus, 0⟩).map fun result => do
          let cset <- result
          return (1, cset)

end Runner
end Autolock
