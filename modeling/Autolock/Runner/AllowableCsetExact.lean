import Autolock.Runner.AllowableCset

namespace Autolock
namespace Runner

open Data

/-!
# How many CPUs the benchmark may use

Every loop that fills the set keeps the sum of the CPUs that are set and the
CPUs that are still wanted.  What is set, when groups of siblings are added, is
a union of whole groups, so that a group whose first CPU is not set is disjoint
from it.
-/

theorem length_filter_range {cpus : Finset Nat} {n : Nat} (inside : cpus ⊆ Finset.range n) :
    ((List.range n).filter fun i => i ∈ cpus).length = cpus.card := by
  rw [← List.toFinset_card_of_nodup (List.nodup_range.filter _)]
  congr 1
  ext i
  rw [List.mem_toFinset, List.mem_filter, decide_eq_true_eq, List.mem_range]
  exact and_iff_right_of_imp fun member => Finset.mem_range.mp (inside member)

/-! ## Groups of siblings -/

section siblings

variable {topology : Topology} {is : List Nat} {s : SiblingLoop} {numCpus numSet : Nat}
  {siblings : Cpuset}

/-- The groups of the CPUs in the set are in the set. -/
def Topology.Whole (topology : Topology) (cpus : Finset Nat) : Prop :=
  forall i, i ∈ cpus -> i < topology.numCpus ∧ (topology.smtCpuMap i).cpus ⊆ cpus

theorem Topology.Whole.disjoint {cpus : Finset Nat} (whole : topology.Whole cpus) {i : Nat}
    (below : i < topology.numCpus) (new : i ∉ cpus) :
    Disjoint (topology.smtCpuMap i).cpus cpus := by
  refine Finset.disjoint_left.mpr fun j sibling member => new ?_
  have group := (whole j member).2
  rw [topology.sibling i below j sibling] at group
  exact group (topology.itself i below)

theorem Topology.Whole.union {cpus : Finset Nat} (whole : topology.Whole cpus) {i : Nat}
    (below : i < topology.numCpus) : topology.Whole (cpus ∪ (topology.smtCpuMap i).cpus) := by
  intro j member
  rcases Finset.mem_union.mp member with old | sibling
  · exact ⟨(whole j old).1, (whole j old).2.trans Finset.subset_union_left⟩
  · refine ⟨topology.below i below j sibling, ?_⟩
    rw [topology.sibling i below j sibling]
    exact Finset.subset_union_right

theorem Topology.Whole.subset {cpus : Finset Nat} (whole : topology.Whole cpus) :
    cpus ⊆ Finset.range topology.numCpus :=
  fun i member => Finset.mem_range.mpr (whole i member).1

/-- Where the first loop stands: `wanted` CPUs have been asked for. -/
structure SiblingLoop.Fills (topology : Topology) (wanted : Nat) (s : SiblingLoop) : Prop where
  whole : topology.Whole s.cset.cpus
  sum : (s.cset.cpus.card : Int) + s.numCpus = wanted
  some : 0 < s.numCpus

/-- Where it leaves: at a group that is not set and has at least the CPUs still wanted. -/
structure SiblingLoop.Last (topology : Topology) (s : SiblingLoop) : Prop where
  group : exists i, i < topology.numCpus ∧ s.csetSiblings = topology.smtCpuMap i
  disjoint : Disjoint s.csetSiblings.cpus s.cset.cpus
  count : s.numSet = s.csetSiblings.cpus.card
  enough : s.numCpus ≤ s.numSet

/-- Every CPU comes later or is set. -/
def Covered (topology : Topology) (is : List Nat) (cpus : Finset Nat) : Prop :=
  forall i, i < topology.numCpus -> i ∈ is ∨ i ∈ cpus

theorem Covered.next {i : Nat} {cpus cpus' : Finset Nat} (covered : Covered topology (i :: is) cpus)
    (set : i < topology.numCpus -> i ∈ cpus') (kept : cpus ⊆ cpus') : Covered topology is cpus' := by
  intro j below
  rcases covered j below with listed | done
  · rcases List.mem_cons.mp listed with rfl | later
    · exact Or.inr (set below)
    · exact Or.inl later
  · exact Or.inr (kept done)

/-- When nothing comes later all the CPUs are set. -/
theorem Covered.card_le {cpus : Finset Nat} (covered : Covered topology [] cpus) :
    topology.numCpus ≤ cpus.card := by
  have all : Finset.range topology.numCpus ⊆ cpus := by
    intro i member
    rcases covered i (Finset.mem_range.mp member) with nothing | set
    · cases nothing
    · exact set
  simpa only [Finset.card_range] using Finset.card_le_card all

/-- The state after the group of `i` has been added. -/
def SiblingLoop.add (topology : Topology) (i : Nat) (s : SiblingLoop) : SiblingLoop :=
  ⟨csetOrEq s.cset (topology.smtCpuMap i), topology.smtCpuMap i, csetCount (topology.smtCpuMap i),
    s.numCpus - csetCount (topology.smtCpuMap i)⟩

/-- The state when the loop is left at the group of `i`. -/
def SiblingLoop.leave (topology : Topology) (i : Nat) (s : SiblingLoop) : SiblingLoop :=
  ⟨s.cset, topology.smtCpuMap i, csetCount (topology.smtCpuMap i), s.numCpus⟩

section iteration

variable {i : Nat}

theorem addSiblings_set (set : i ∈ s.cset.cpus) :
    addSiblings topology (i :: is) s = addSiblings topology is s := by
  rw [addSiblings, if_pos (csetIsset_iff.mpr set)]

theorem addSiblings_leave (here : i < topology.numCpus) (new : i ∉ s.cset.cpus)
    (last : s.numCpus ≤ (topology.smtCpuMap i).cpus.card) :
    addSiblings topology (i :: is) s = .ok (s.leave topology i) := by
  rw [addSiblings, if_neg (fun isset => new (csetIsset_iff.mp isset)),
    Topology.getLogicalCpuIds_eq here]
  exact if_pos last

theorem addSiblings_add (here : i < topology.numCpus) (new : i ∉ s.cset.cpus)
    (disjoint : Disjoint (topology.smtCpuMap i).cpus s.cset.cpus)
    (more : ¬s.numCpus ≤ (topology.smtCpuMap i).cpus.card) :
    addSiblings topology (i :: is) s = addSiblings topology is (s.add topology i) := by
  have checked : dieAssert (!csetTest (topology.smtCpuMap i) s.cset) = .ok () :=
    dieAssert_of (by rw [csetTest_eq_false_iff.mpr disjoint]; rfl)
  rw [addSiblings, if_neg (fun isset => new (csetIsset_iff.mp isset)),
    Topology.getLogicalCpuIds_eq here]
  refine (if_neg more).trans ?_
  simp only [checked]
  rfl

theorem SiblingLoop.Fills.add {wanted : Nat} (fills : s.Fills topology wanted)
    (here : i < topology.numCpus) (disjoint : Disjoint (topology.smtCpuMap i).cpus s.cset.cpus)
    (more : ¬s.numCpus ≤ (topology.smtCpuMap i).cpus.card) :
    (s.add topology i).Fills topology wanted := by
  refine ⟨fills.whole.union here, ?_, ?_⟩
  · have card := Finset.card_union_of_disjoint disjoint.symm
    have sum := fills.sum
    change ((s.cset.cpus ∪ (topology.smtCpuMap i).cpus).card : Int) +
      (s.numCpus - ((topology.smtCpuMap i).cpus.card : Int)) = wanted
    rw [card]
    omega
  · exact Int.sub_pos.mpr (Int.not_le.mp more)

end iteration

theorem addSiblings_fills {wanted : Nat} (fills : s.Fills topology wanted)
    (fewer : wanted < topology.numCpus) (below : forall i, i ∈ is -> i < topology.numCpus)
    (covered : Covered topology is s.cset.cpus) :
    exists s', addSiblings topology is s = .ok s' ∧ s'.Fills topology wanted ∧
      s'.Last topology := by
  induction is generalizing s with
  | nil =>
      -- every CPU is set, which is more than were wanted
      have many := covered.card_le
      have sum := fills.sum
      have some := fills.some
      omega
  | cons i is inductionHypothesis =>
      have here := below i List.mem_cons_self
      have below' : forall j, j ∈ is -> j < topology.numCpus :=
        fun j member => below j (List.mem_cons_of_mem i member)
      by_cases set : i ∈ s.cset.cpus
      · rw [addSiblings_set set]
        exact inductionHypothesis fills below' (covered.next (fun _ => set) (Finset.Subset.refl _))
      have disjoint := fills.whole.disjoint here set
      by_cases last : s.numCpus ≤ (topology.smtCpuMap i).cpus.card
      · rw [addSiblings_leave here set last]
        exact ⟨_, rfl, ⟨fills.whole, fills.sum, fills.some⟩, ⟨i, here, rfl⟩, disjoint, rfl, last⟩
      · rw [addSiblings_add here set disjoint last]
        refine inductionHypothesis (fills.add here disjoint last) below' (covered.next ?_ ?_)
        · exact fun _ => Finset.mem_union_right _ (topology.itself i here)
        · exact Finset.subset_union_left

theorem trimSiblings_subset : (trimSiblings is numSet siblings).cpus ⊆ siblings.cpus := by
  fun_induction trimSiblings is numSet siblings with
  | case1 | case2 => exact Finset.Subset.refl _
  | case3 _ _ _ _ _ _ inductionHypothesis =>
      exact inductionHypothesis.trans (Finset.erase_subset _ _)
  | case4 _ _ _ _ _ _ inductionHypothesis => exact inductionHypothesis

/-- The group loses as many CPUs as it has to, if that many are among those of the loop. -/
theorem card_trimSiblings (nodup : is.Nodup)
    (listed : numSet ≤ (is.filter fun i => i ∈ siblings.cpus).length) :
    (trimSiblings is numSet siblings).cpus.card + numSet = siblings.cpus.card := by
  induction is generalizing numSet siblings with
  | nil =>
      have zero : numSet = 0 := Nat.le_zero.mp listed
      rw [zero]
      rfl
  | cons i is inductionHypothesis =>
      rcases List.nodup_cons.mp nodup with ⟨new, nodup'⟩
      cases numSet with
      | zero => rfl
      | succ numSet =>
          have going : ¬((numSet + 1 : Nat) : Int) = 0 := by omega
          rw [trimSiblings, if_neg going]
          by_cases member : i ∈ siblings.cpus
          · have less : ((numSet + 1 : Nat) : Int) - 1 = (numSet : Nat) := by omega
            have same : (is.filter fun j => j ∈ (csetClr i siblings).cpus) =
                is.filter fun j => j ∈ siblings.cpus := by
              refine List.filter_congr fun j later => ?_
              have different : j ≠ i := fun equal => new (equal ▸ later)
              rw [decide_eq_decide]
              exact Finset.mem_erase.trans (and_iff_right different)
            rw [List.filter_cons_of_pos (by simpa using member), List.length_cons] at listed
            have rest := @inductionHypothesis numSet (csetClr i siblings)
              nodup' (by rw [same]; omega)
            have card : (csetClr i siblings).cpus.card + 1 = siblings.cpus.card :=
              Finset.card_erase_add_one member
            rw [if_pos (csetIsset_iff.mpr member), less]
            omega
          · rw [List.filter_cons_of_neg (by simpa using member)] at listed
            rw [if_neg (fun isset => member (csetIsset_iff.mp isset))]
            exact inductionHypothesis nodup' listed

/-- Whole groups, and a part of one more. -/
structure UnionOfGroups (topology : Topology) (cset : Cpuset) : Prop where
  parts : exists whole part, cset.cpus = whole ∪ part ∧ Disjoint whole part ∧
    topology.Whole whole ∧
      exists i, i < topology.numCpus ∧ part ⊆ (topology.smtCpuMap i).cpus

theorem preferHyperThreadsCset_exact (positive : 0 < numCpus) (fewer : numCpus < topology.numCpus) :
    exists cset, preferHyperThreadsCset topology numCpus = .ok cset ∧
      cset.cpus.card = numCpus ∧ UnionOfGroups topology cset := by
  have fills : SiblingLoop.Fills topology numCpus ⟨csetZero, csetZero, numCpus, numCpus⟩ :=
    ⟨fun i member => absurd member (Finset.notMem_empty i), Int.zero_add _,
      Int.natCast_pos.mpr positive⟩
  rcases addSiblings_fills fills fewer (fun i member => List.mem_range.mp member)
    (fun i below => Or.inl (List.mem_range.mpr below)) with ⟨s, run, filled, last⟩
  rcases last.group with ⟨i, below, group⟩
  have subset := @trimSiblings_subset (List.range topology.numCpus) (s.numSet - s.numCpus).toNat
    s.csetSiblings
  have surplus : (((s.numSet - s.numCpus).toNat : Nat) : Int) = s.numSet - s.numCpus :=
    Int.toNat_of_nonneg (Int.sub_nonneg.mpr last.enough)
  have card := @card_trimSiblings (List.range topology.numCpus) (s.numSet - s.numCpus).toNat
    s.csetSiblings List.nodup_range (by
      have inside : s.csetSiblings.cpus ⊆ Finset.range topology.numCpus := by
        rw [group]
        exact fun j sibling => Finset.mem_range.mpr (topology.below i below j sibling)
      rw [length_filter_range inside]
      have := last.count
      have := filled.some
      omega)
  rw [surplus] at subset card
  have new : dieAssert (!csetTest s.csetSiblings s.cset) = .ok () :=
    dieAssert_of (by rw [csetTest_eq_false_iff.mpr last.disjoint]; rfl)
  have apart : Disjoint s.cset.cpus
      (trimSiblings (List.range topology.numCpus) (s.numSet - s.numCpus) s.csetSiblings).cpus :=
    last.disjoint.symm.mono_right subset
  refine ⟨csetOrEq s.cset (trimSiblings (List.range topology.numCpus) (s.numSet - s.numCpus)
    s.csetSiblings), ?_, ?_, _, _, rfl, apart, filled.whole, i, below, group ▸ subset⟩
  · rw [preferHyperThreadsCset, run]
    simp only [bind, Except.bind, new]
    rfl
  · have union := Finset.card_union_of_disjoint apart
    have sum := filled.sum
    have count := last.count
    have enough := last.enough
    change (s.cset.cpus ∪ _).card = numCpus
    omega

end siblings

/-! ## One CPU for each core first -/

section cores

variable {topology : Topology} {is : List Nat} {s : CoreLoop} {numCpus wanted : Nat}

/-- The CPUs that a pass would set. -/
def candidates (topology : Topology) (s : CoreLoop) (is : List Nat) : List Nat :=
  is.filter fun i => i ∉ s.cset.cpus ∧ (i = topology.physCore i ∨ s.iterCnt ≠ 0)

/-- What the inner loop leaves behind: the first of its candidates, up to the wanted number. -/
inductive CoreIterResult (topology : Topology) (is : List Nat) (s : CoreLoop) (wanted : Nat) :
    Pass CoreLoop Cpuset -> Prop
  | done (cset : Cpuset) (enough : wanted ≤ (candidates topology s is).length)
      (cpus : cset.cpus = s.cset.cpus ∪ ((candidates topology s is).take wanted).toFinset) :
      CoreIterResult topology is s wanted (.done cset)
  | again (cset : Cpuset) (few : (candidates topology s is).length < wanted)
      (cpus : cset.cpus = s.cset.cpus ∪ (candidates topology s is).toFinset) :
      CoreIterResult topology is s wanted
        (.again ⟨cset, wanted - (candidates topology s is).length, 1⟩)

theorem candidates_skip {i : Nat}
    (skipped : ¬(i ∉ s.cset.cpus ∧ (i = topology.physCore i ∨ s.iterCnt ≠ 0))) :
    candidates topology s (i :: is) = candidates topology s is :=
  List.filter_cons_of_neg (by simpa using skipped)

theorem candidates_take {i : Nat}
    (chosen : i ∉ s.cset.cpus ∧ (i = topology.physCore i ∨ s.iterCnt ≠ 0)) :
    candidates topology s (i :: is) = i :: candidates topology s is :=
  List.filter_cons_of_pos (by simpa using chosen)

/-- Setting a CPU that does not come again changes no later choice. -/
theorem candidates_csetSet {i : Nat} {n : Int} (new : i ∉ is) (fits : i < cpuSetsize) :
    candidates topology ⟨csetSet i s.cset, n, s.iterCnt⟩ is = candidates topology s is := by
  refine List.filter_congr fun j later => ?_
  have different : j ≠ i := fun equal => new (equal ▸ later)
  rw [decide_eq_decide, cpus_csetSet fits, Finset.mem_insert, or_iff_right different]

section iteration

variable {i : Nat}

/-- What the loop leaves does not depend on a CPU that it passes over. -/
theorem CoreIterResult.skip {result : Pass CoreLoop Cpuset}
    (skipped : ¬(i ∉ s.cset.cpus ∧ (i = topology.physCore i ∨ s.iterCnt ≠ 0)))
    (found : CoreIterResult topology is s wanted result) :
    CoreIterResult topology (i :: is) s wanted result := by
  have others := @candidates_skip topology is s i skipped
  cases found with
  | done cset enough cpus => exact .done cset (others ▸ enough) (others ▸ cpus)
  | again cset few cpus =>
      rw [← others]
      exact .again cset (others ▸ few) (others ▸ cpus)

/-- A CPU that is taken is the first of the candidates. -/
theorem CoreIterResult.take {rest : Nat} {result : Pass CoreLoop Cpuset}
    (chosen : i ∉ s.cset.cpus ∧ (i = topology.physCore i ∨ s.iterCnt ≠ 0)) (new : i ∉ is)
    (fits : i < cpuSetsize)
    (found : CoreIterResult topology is ⟨csetSet i s.cset, rest, s.iterCnt⟩ rest result) :
    CoreIterResult topology (i :: is) s (rest + 1) result := by
  have others := @candidates_csetSet topology is s i rest new fits
  cases found with
  | done cset enough cpus =>
      rw [others] at enough cpus
      refine .done cset ?_ ?_
      · rw [candidates_take chosen]
        exact Nat.succ_le_succ enough
      · rw [candidates_take chosen, cpus, cpus_csetSet fits, List.take_succ_cons,
          List.toFinset_cons, Finset.insert_union, Finset.union_insert]
  | again cset few cpus =>
      rw [others] at few cpus ⊢
      have length : (candidates topology s (i :: is)).length =
          (candidates topology s is).length + 1 := by
        rw [candidates_take chosen, List.length_cons]
      have left : (rest : Int) - (candidates topology s is).length =
          ((rest + 1 : Nat) : Int) - (candidates topology s (i :: is)).length := by
        omega
      rw [left]
      refine .again cset (by omega) ?_
      rw [candidates_take chosen, cpus, cpus_csetSet fits, List.toFinset_cons,
        Finset.insert_union, Finset.union_insert]

/-- The last CPU that is wanted. -/
theorem CoreIterResult.last
    (chosen : i ∉ s.cset.cpus ∧ (i = topology.physCore i ∨ s.iterCnt ≠ 0))
    (fits : i < cpuSetsize) :
    CoreIterResult topology (i :: is) s 1 (.done (csetSet i s.cset)) := by
  refine .done _ ?_ ?_
  · rw [candidates_take chosen]
    exact Nat.le_add_left 1 _
  · rw [candidates_take chosen, cpus_csetSet fits, List.take_succ_cons, List.take_zero,
      List.toFinset_cons, List.toFinset_nil, Finset.union_insert, Finset.union_empty]

theorem coreIter_skip (here : i < topology.numCpus)
    (skipped : ¬(i ∉ s.cset.cpus ∧ (i = topology.physCore i ∨ s.iterCnt ≠ 0))) :
    coreIter topology (i :: is) s = coreIter topology is s := by
  by_cases set : i ∈ s.cset.cpus
  · rw [coreIter, if_pos (csetIsset_iff.mpr set)]
  · rw [coreIter, if_neg (fun isset => set (csetIsset_iff.mp isset)),
      Topology.getPhysCpuId_eq here]
    exact if_neg fun takes => skipped ⟨set, takes⟩

theorem coreIter_take (here : i < topology.numCpus)
    (chosen : i ∉ s.cset.cpus ∧ (i = topology.physCore i ∨ s.iterCnt ≠ 0)) :
    coreIter topology (i :: is) s =
      if s.numCpus - 1 = 0 then .ok (.done (csetSet i s.cset))
      else coreIter topology is ⟨csetSet i s.cset, s.numCpus - 1, s.iterCnt⟩ := by
  rw [coreIter, if_neg (fun isset => chosen.1 (csetIsset_iff.mp isset)),
    Topology.getPhysCpuId_eq here]
  exact if_pos chosen.2

end iteration

theorem coreIter_result (nodup : is.Nodup) (below : forall i, i ∈ is -> i < topology.numCpus)
    (positive : 0 < wanted) (same : s.numCpus = wanted) :
    exists result, coreIter topology is s = .ok result ∧
      CoreIterResult topology is s wanted result := by
  induction is generalizing s wanted with
  | nil =>
      refine ⟨_, rfl, ?_⟩
      rcases s with ⟨cset, n, iterCnt⟩
      cases same
      exact .again cset positive (Finset.union_empty _).symm
  | cons i is inductionHypothesis =>
      rcases List.nodup_cons.mp nodup with ⟨new, nodup'⟩
      have here := below i List.mem_cons_self
      have below' : forall j, j ∈ is -> j < topology.numCpus :=
        fun j member => below j (List.mem_cons_of_mem i member)
      have fits := topology.fits here
      by_cases chosen : i ∉ s.cset.cpus ∧ (i = topology.physCore i ∨ s.iterCnt ≠ 0)
      · rcases Nat.exists_eq_succ_of_ne_zero positive.ne' with ⟨rest, rfl⟩
        have less : s.numCpus - 1 = (rest : Int) := by omega
        rw [coreIter_take here chosen, less]
        cases rest with
        | zero => exact ⟨_, rfl, .last chosen fits⟩
        | succ rest =>
            rw [if_neg (by omega)]
            rcases inductionHypothesis (s := ⟨csetSet i s.cset, (rest + 1 : Nat), s.iterCnt⟩)
              nodup' below' (Nat.succ_pos rest) rfl with ⟨result, run, found⟩
            exact ⟨result, run, found.take chosen new fits⟩
      · rcases inductionHypothesis nodup' below' positive same with ⟨result, run, found⟩
        exact ⟨result, (coreIter_skip here chosen).trans run, found.skip chosen⟩

/-- The CPUs that stand for their cores. -/
def Topology.physCores (topology : Topology) : Finset Nat :=
  (Finset.range topology.numCpus).image topology.physCore

theorem Topology.mem_physCores_iff {i : Nat} (below : i < topology.numCpus) :
    i ∈ topology.physCores <-> i = topology.physCore i := by
  rw [physCores, Finset.mem_image]
  constructor
  · rintro ⟨j, member, rfl⟩
    have less := Finset.mem_range.mp member
    exact (topology.sameCore j less _ (topology.core j less)).symm
  · exact fun own => ⟨i, Finset.mem_range.mpr below, own.symm⟩

theorem Topology.physCores_subset : topology.physCores ⊆ Finset.range topology.numCpus := by
  rw [physCores, Finset.image_subset_iff]
  intro i member
  have below := Finset.mem_range.mp member
  exact Finset.mem_range.mpr (topology.below i below _ (topology.core i below))

/-- The first pass can set the cores, the second one all the others. -/
theorem candidates_first (n : Int) :
    candidates topology ⟨csetZero, n, 0⟩ (List.range topology.numCpus) =
      (List.range topology.numCpus).filter fun i => i ∈ topology.physCores := by
  refine List.filter_congr fun i member => ?_
  rw [decide_eq_decide, Topology.mem_physCores_iff (List.mem_range.mp member)]
  simp [csetZero]

theorem candidates_second {cset : Cpuset} (n : Int) (cores : cset.cpus = topology.physCores) :
    candidates topology ⟨cset, n, 1⟩ (List.range topology.numCpus) =
      (List.range topology.numCpus).filter fun i =>
        i ∈ Finset.range topology.numCpus \ topology.physCores := by
  refine List.filter_congr fun i member => ?_
  rw [decide_eq_decide, cores, Finset.mem_sdiff, Finset.mem_range]
  simp [List.mem_range.mp member]

/-- The list of the members of a set gives the set back. -/
theorem toFinset_filter_range {cpus : Finset Nat} {n : Nat} (inside : cpus ⊆ Finset.range n) :
    ((List.range n).filter fun i => i ∈ cpus).toFinset = cpus := by
  ext i
  rw [List.mem_toFinset, List.mem_filter, decide_eq_true_eq, List.mem_range]
  exact and_iff_right_of_imp fun member => Finset.mem_range.mp (inside member)

/-- Some number of the members, the smallest ones. -/
theorem take_filter_range {cpus : Finset Nat} {n m : Nat} (inside : cpus ⊆ Finset.range n)
    (enough : m ≤ cpus.card) :
    (((List.range n).filter fun i => i ∈ cpus).take m).toFinset ⊆ cpus ∧
      (((List.range n).filter fun i => i ∈ cpus).take m).toFinset.card = m := by
  constructor
  · intro i member
    rw [← toFinset_filter_range inside, List.mem_toFinset]
    exact List.mem_of_mem_take (List.mem_toFinset.mp member)
  · have nodup := (List.nodup_range (n := n)).filter fun i => i ∈ cpus
    rw [List.toFinset_card_of_nodup (nodup.sublist (List.take_sublist m _)), List.length_take,
      length_filter_range inside, Nat.min_eq_left enough]

/-- What is to be shown of the set. -/
structure CoresFirst (topology : Topology) (numCpus : Nat) (cset : Cpuset) : Prop where
  card : cset.cpus.card = numCpus
  inside : cset.cpus ⊆ Finset.range topology.numCpus
  cores : (cset.cpus ∩ topology.physCores).card = min numCpus topology.physCores.card

theorem corePass_exact (positive : 0 < numCpus) (fewer : numCpus < topology.numCpus) :
    exists cset, CoresFirst topology numCpus cset ∧ forall passes,
      loop (corePass topology) (passes + 2) ⟨csetZero, numCpus, 0⟩ = some (.ok cset) := by
  have all := @Topology.physCores_subset topology
  have below : forall i, i ∈ List.range topology.numCpus -> i < topology.numCpus :=
    fun i member => List.mem_range.mp member
  rcases coreIter_result (s := ⟨csetZero, numCpus, 0⟩) List.nodup_range below positive rfl with
    ⟨result, run, found⟩
  cases found with
  | done cset enough cpus =>
      rw [candidates_first] at enough cpus
      rw [length_filter_range all] at enough
      rcases take_filter_range all enough with ⟨subset, card⟩
      have cpus' := cpus.trans (Finset.empty_union _)
      refine ⟨cset, ⟨?_, ?_, ?_⟩, fun passes => loop_done _ ?_⟩
      · rw [cpus', card]
      · rw [cpus']
        exact subset.trans all
      · rw [cpus', Finset.inter_eq_left.mpr subset, card, Nat.min_eq_left enough]
      · rw [corePass, run]
  | again cset few cpus =>
      rw [candidates_first] at few cpus run
      rw [toFinset_filter_range all] at cpus
      rw [length_filter_range all] at few run
      have cpus' := cpus.trans (Finset.empty_union _)
      have left : (numCpus : Int) - topology.physCores.card =
          ((numCpus - topology.physCores.card : Nat) : Int) := by omega
      have others : Finset.range topology.numCpus \ topology.physCores ⊆
          Finset.range topology.numCpus := Finset.sdiff_subset
      have count := Finset.card_sdiff_add_card_eq_card all
      rw [Finset.card_range] at count
      rw [left] at run
      rcases coreIter_result (s := ⟨cset, (numCpus - topology.physCores.card : Nat), 1⟩)
        List.nodup_range below (Nat.sub_pos_of_lt few) rfl with ⟨result', run', found'⟩
      cases found' with
      | again cset' few' _ =>
          rw [candidates_second _ cpus', length_filter_range others] at few'
          omega
      | done cset' enough' both =>
          rw [candidates_second _ cpus', length_filter_range others] at enough'
          rw [candidates_second _ cpus', cpus'] at both
          rcases take_filter_range others enough' with ⟨subset, card⟩
          have apart := (Finset.disjoint_sdiff (s := topology.physCores)
            (t := Finset.range topology.numCpus)).mono_right subset
          refine ⟨cset', ⟨?_, ?_, ?_⟩, fun passes => ?_⟩
          · rw [both, Finset.card_union_of_disjoint apart, card]
            omega
          · rw [both]
            exact Finset.union_subset all (subset.trans others)
          · rw [both, Finset.union_inter_cancel_left]
            omega
          · rw [loop_again _ (by rw [corePass, run]), loop_done _ (by rw [corePass, run'])]

end cores

/-! ## The function -/

/-- The set has as many CPUs as were asked for, in whole groups of siblings but
for one, or with as many cores as there can be. -/
theorem setAllowableCset_exact (topology : Topology) (numCpus : Int) (positive : 0 < numCpus)
    (fewer : numCpus < topology.numCpus) (pinCpus preferHyperThreads : UInt32) :
    exists cset : Cpuset,
      (forall passes, setAllowableCset topology (passes + 2) none numCpus pinCpus
        preferHyperThreads = some (.ok (1, cset))) ∧
      (cset.cpus.card : Int) = numCpus ∧ cset.cpus ⊆ Finset.range topology.numCpus ∧
      (preferHyperThreads ≠ 0 -> UnionOfGroups topology cset) ∧
      (preferHyperThreads = 0 -> ((cset.cpus ∩ topology.physCores).card : Int) =
        min numCpus topology.physCores.card) := by
  rcases Int.eq_ofNat_of_zero_le positive.le with ⟨n, rfl⟩
  have some : 0 < n := Int.natCast_pos.mp positive
  have less : n < topology.numCpus := Int.ofNat_lt.mp fewer
  have pins : (!shouldPinCpus none n pinCpus) = false := by
    simp [shouldPinCpus, some]
  by_cases prefers : preferHyperThreads = 0
  · rcases corePass_exact some less with ⟨cset, first, returns⟩
    refine ⟨cset, fun passes => ?_, by rw [first.card], first.inside, absurd prefers, fun _ => ?_⟩
    · simp only [setAllowableCset, pins, Bool.false_eq_true, if_false, positive.not_ge,
        fewer.not_ge, prefers, ne_eq, not_true_eq_false, returns]
      rfl
    · rw [first.cores]
      omega
  · rcases preferHyperThreadsCset_exact some less with ⟨cset, returns, card, groups⟩
    refine ⟨cset, fun passes => ?_, by rw [card], ?_, fun _ => groups, fun zero => absurd zero prefers⟩
    · simp only [setAllowableCset, pins, Bool.false_eq_true, if_false, positive.not_ge,
        fewer.not_ge, prefers, ne_eq, not_false_eq_true, if_true, returns]
      rfl
    · rcases groups.parts with ⟨whole, part, both, -, closed, i, below, inside⟩
      rw [both]
      exact Finset.union_subset closed.subset (inside.trans fun j sibling =>
        Finset.mem_range.mpr (topology.below i below j sibling))

/-- Three CPUs of the laptop: a core with both its CPUs, and one CPU of another core. -/
theorem setAllowableCset_exact_three :
    exists cset : Cpuset,
      (forall passes, setAllowableCset eightConf (passes + 2) none 3 0 1 = some (.ok (1, cset))) ∧
      (cset.cpus.card : Int) = 3 ∧ cset.cpus ⊆ Finset.range 8 ∧
      ((1 : UInt32) ≠ 0 -> UnionOfGroups eightConf cset) ∧
      ((1 : UInt32) = 0 -> ((cset.cpus ∩ eightConf.physCores).card : Int) =
        min 3 eightConf.physCores.card) :=
  setAllowableCset_exact eightConf 3 (by decide) (by decide) 0 1

example : (preferHyperThreadsCset eightConf 3).map Cpuset.cpus = .ok {0, 4, 5} := by
  decide

end Runner
end Autolock
