import Autolock.Stats.RoundTrip
import Mathlib.Data.List.Sort

namespace Autolock
namespace Stats

open Data

/-!
# The order in which the statistics are printed

`autolock_stats_out` sorts the array of pointers to the entries.  Its comparison
is given pointers to slots of that array and takes them for pointers to entries:
the seconds that it reads are the pointer in the slot, the nanoseconds are the
next slot.

So the comparison may tell two pointers apart in one way in some slots and in
another way in others.  `qsort` sorts by a comparison that does not; after any
other one it may leave any arrangement.
-/

/-- `to_ns` -/
def toNs (ts : Timespec) : UInt64 :=
  1000 * 1000 * 1000 * ts.sec + ts.nsec

/-- `I_autolock_stats_entry_cmp` -/
def statsEntryCmp (mem : ByteMemory) (a b : Nat) : Int :=
  let aNs := toNs (readEntry mem a).ts
  let bNs := toNs (readEntry mem b).ts
  if aNs < bNs then -1 else if aNs > bNs then 1 else 0

/-- The loop of `autolock_stats_out`, which prints the entries behind the slots. -/
def statsPrint (mem : ByteMemory) (entries nentries : Nat) : List StatsEntry :=
  (List.range nentries).map fun i => readEntry mem (mem.readNat (entries + 8 * i) 8)

/-- The time of an entry in nanoseconds. -/
def StatsEntry.time (entry : StatsEntry) : Nat :=
  10 ^ 9 * entry.ts.sec.toNat + entry.ts.nsec.toNat

/-- Memory after `autolock_get_stats`: the entries lie one behind the other from
`base_ptr` on, and the array of the pointers to them behind the buffer. -/
structure ParsedStats where
  mem : ByteMemory
  basePtr : Nat
  numCpus : Nat
  recorded : List StatsEntry
  counted : forall entry, entry ∈ recorded -> entry.Counted
  stored : mem.Holds basePtr (statsFormat.encodeAll recorded)
  fits : (statsFormat.encodeAll recorded).length ≤ autolockGetBufSize numCpus
  array : mem.Holds (basePtr + autolockGetBufSize numCpus)
    (ByteMemory.array 8 (statsFormat.starts basePtr recorded))
  address : basePtr + autolockGetBufSize numCpus + 8 * autolockGetMaxEntries numCpus ≤ 2 ^ 64

namespace ParsedStats

variable (stats : ParsedStats)

/-- `stats->entries` -/
def entries : Nat :=
  stats.basePtr + autolockGetBufSize stats.numCpus

/-- The pointers with the entries behind them, in the order of the array. -/
def parsed : List (Nat × StatsEntry) :=
  (statsFormat.starts stats.basePtr stats.recorded).zip stats.recorded

/-- Memory when the pointers have been rearranged. -/
def arrangedMem (arranged : List (Nat × StatsEntry)) : ByteMemory :=
  stats.mem.write stats.entries (ByteMemory.array 8 (arranged.map Prod.fst))

/-- The comparison of two slots. -/
def compare (arranged : List (Nat × StatsEntry)) (i j : Nat) : Int :=
  statsEntryCmp (stats.arrangedMem arranged) (stats.entries + 8 * i) (stats.entries + 8 * j)

/-- The comparison orders the pointers by some rank, whichever slots they are in. -/
def Consistent : Prop :=
  exists rank : Nat -> Nat, forall arranged, arranged.Perm stats.parsed ->
    forall i j (iIn : i < arranged.length) (jIn : j < arranged.length),
      stats.compare arranged i j ≤ 0 <->
        rank arranged[i].1 ≤ rank arranged[j].1

/-- A permutation of the pointers, which a consistent comparison finds in order. -/
structure QsortMay (arranged : List (Nat × StatsEntry)) : Prop where
  perm : arranged.Perm stats.parsed
  sorted : stats.Consistent -> forall i j, i < j -> j < arranged.length ->
    stats.compare arranged i j ≤ 0

/-- `autolock_stats_out` -/
def printed (arranged : List (Nat × StatsEntry)) : List StatsEntry :=
  statsPrint (stats.arrangedMem arranged) stats.entries stats.recorded.length

/-- Every entry is printed once, and none before an earlier one. -/
def PrintsInTimeOrder : Prop :=
  forall arranged, stats.QsortMay arranged ->
    (stats.printed arranged).Perm stats.recorded ∧
      (stats.printed arranged).Pairwise fun entry entry' => entry.time ≤ entry'.time

/-- The word behind the array. -/
def wordAfter : Nat :=
  stats.mem.readNat (stats.entries + 8 * stats.recorded.length) 8

/-- What the comparison makes of a slot: a thousand million times the pointer
there and the next word, in 64 bits. -/
def slotKey (arranged : List (Nat × StatsEntry)) (i : Nat) : Nat :=
  let words := arranged.map Prod.fst ++ [stats.wordAfter]
  (10 ^ 9 * words.getD i 0 + words.getD (i + 1) 0) % 2 ^ 64

/-- In every arrangement the keys of the slots order the pointers by this rank. -/
def RankedBy (rank : Nat -> Nat) : Prop :=
  forall arranged, arranged.Perm stats.parsed ->
    forall i j (iIn : i < arranged.length) (jIn : j < arranged.length),
      stats.slotKey arranged i ≤ stats.slotKey arranged j <->
        rank arranged[i].1 ≤ rank arranged[j].1

/-! ## What has been parsed -/

variable {stats} {arranged : List (Nat × StatsEntry)}

theorem parsed_fst : stats.parsed.map Prod.fst = statsFormat.starts stats.basePtr stats.recorded :=
  List.map_fst_zip (Nat.le_of_eq (RecordFormat.starts_length _ _))

theorem parsed_snd : stats.parsed.map Prod.snd = stats.recorded :=
  List.map_snd_zip (Nat.le_of_eq (RecordFormat.starts_length _ _).symm)

theorem length_parsed : stats.parsed.length = stats.recorded.length := by
  rw [← parsed_snd, List.length_map]

/-- The pointers are those that `I_autolock_parse_stats` has stored in the array. -/
theorem parsed_eq (stats : ParsedStats) :
    autolockParseStats stats.mem stats.basePtr (statsFormat.encodeAll stats.recorded).length [] =
      some (stats.parsed.map Prod.fst) := by
  have valid : forall entry, entry ∈ stats.recorded -> statsFormat.Valid entry :=
    fun entry member => (stats.counted entry member).2
  rw [autolockParseStats_eq, RecordFormat.walk_starts valid stats.stored, parsed_fst]
  rfl

theorem mem_recorded {x : Nat × StatsEntry} (member : x ∈ stats.parsed) : x.2 ∈ stats.recorded := by
  rw [← parsed_snd]
  exact List.mem_map_of_mem member

/-- An entry is where its pointer says, before the array. -/
theorem holds_parsed {x : Nat × StatsEntry} (member : x ∈ stats.parsed) :
    stats.mem.Holds x.1 x.2.bytes ∧ x.1 + x.2.bytes.length ≤ stats.entries := by
  rcases RecordFormat.holds_of_mem_starts stats.stored member with ⟨holds, ends⟩
  exact ⟨holds, ends.trans (Nat.add_le_add_left stats.fits _)⟩

/-! ## What is in memory after the arrangement -/

theorem address_arranged (perm : arranged.Perm stats.parsed) {p : Nat}
    (member : p ∈ arranged.map Prod.fst) : p < 2 ^ 64 := by
  rcases List.mem_map.mp member with ⟨x, there, rfl⟩
  have ends := (holds_parsed (perm.mem_iff.mp there)).2
  have address := stats.address
  rw [StatsEntry.bytes_length, entrySize, entries] at ends
  omega

theorem readNat_slot (perm : arranged.Perm stats.parsed) {i : Nat}
    (inside : i < (arranged.map Prod.fst).length) :
    (stats.arrangedMem arranged).readNat (stats.entries + 8 * i) 8 =
      (arranged.map Prod.fst)[i] :=
  ByteMemory.readNat_array ByteMemory.holds_write
    (fun _ member => (address_arranged perm member).trans_le (by decide)) inside

theorem length_arranged (perm : arranged.Perm stats.parsed) :
    arranged.length = stats.recorded.length :=
  perm.length_eq.trans length_parsed

/-- The slot behind the last one is not touched. -/
theorem readNat_after (perm : arranged.Perm stats.parsed) :
    (stats.arrangedMem arranged).readNat (stats.entries + 8 * arranged.length) 8 =
      stats.wordAfter := by
  rw [length_arranged perm]
  refine ByteMemory.readNat_write_of_le ?_
  rw [ByteMemory.array_length, List.length_map, length_arranged perm]

/-- The entries are not touched. -/
theorem readEntry_arranged (perm : arranged.Perm stats.parsed) {x : Nat × StatsEntry}
    (member : x ∈ arranged) : readEntry (stats.arrangedMem arranged) x.1 = x.2 := by
  have there := perm.mem_iff.mp member
  rcases holds_parsed there with ⟨holds, before⟩
  exact readEntry_eq (stats.counted x.2 (mem_recorded there)).2 (holds.write (Or.inl before))

theorem words_getD (perm : arranged.Perm stats.parsed) {i : Nat} (inside : i ≤ arranged.length) :
    (stats.arrangedMem arranged).readNat (stats.entries + 8 * i) 8 =
      (arranged.map Prod.fst ++ [stats.wordAfter]).getD i 0 := by
  rcases Nat.lt_or_eq_of_le inside with less | rfl
  · have inside' : i < (arranged.map Prod.fst).length := by rwa [List.length_map]
    rw [readNat_slot perm inside', List.getD_eq_getElem?_getD, List.getElem?_append_left inside',
      List.getElem?_eq_getElem inside', Option.getD_some]
  · rw [readNat_after perm, List.getD_eq_getElem?_getD,
      List.getElem?_append_right (by rw [List.length_map])]
    simp

theorem toNs_toNat (a b : Nat) :
    (toNs ⟨UInt64.ofNat a, UInt64.ofNat b⟩).toNat = (10 ^ 9 * a + b) % 2 ^ 64 := by
  simp [toNs]

/-- What the comparison reads through a pointer to a slot. -/
theorem toNs_slot (perm : arranged.Perm stats.parsed) {i : Nat} (inside : i < arranged.length) :
    (toNs (readEntry (stats.arrangedMem arranged) (stats.entries + 8 * i)).ts).toNat =
      stats.slotKey arranged i := by
  have first := words_getD perm inside.le
  have second := words_getD perm (Nat.succ_le_of_lt inside)
  rw [Nat.mul_succ, ← Nat.add_assoc] at second
  simp only [readEntry, toNs_toNat, first, second, slotKey]

theorem statsEntryCmp_nonpos {mem : ByteMemory} {a b : Nat} :
    statsEntryCmp mem a b ≤ 0 <->
      (toNs (readEntry mem a).ts).toNat ≤ (toNs (readEntry mem b).ts).toNat := by
  unfold statsEntryCmp
  dsimp only
  split
  · next less => exact iff_of_true (by decide) (UInt64.lt_iff_toNat_lt.mp less).le
  · split
    · next _ more => exact iff_of_false (by decide) (Nat.not_le.mpr (UInt64.lt_iff_toNat_lt.mp more))
    · next _ notMore =>
        exact iff_of_true (by decide) (UInt64.le_iff_toNat_le.mp (UInt64.not_lt.mp notMore))

theorem compare_nonpos (perm : arranged.Perm stats.parsed) {i j : Nat}
    (iIn : i < arranged.length) (jIn : j < arranged.length) :
    stats.compare arranged i j ≤ 0 <-> stats.slotKey arranged i ≤ stats.slotKey arranged j := by
  rw [compare, statsEntryCmp_nonpos, toNs_slot perm iIn, toNs_slot perm jIn]

theorem consistent_iff : stats.Consistent <-> exists rank, stats.RankedBy rank := by
  refine exists_congr fun rank => forall_congr' fun arranged => forall_congr' fun perm => ?_
  refine forall_congr' fun i => forall_congr' fun j => forall_congr' fun iIn => ?_
  exact forall_congr' fun jIn => by rw [compare_nonpos perm iIn jIn]

/-- The entries are printed in the order of their pointers. -/
theorem printed_eq (perm : arranged.Perm stats.parsed) :
    stats.printed arranged = arranged.map Prod.snd := by
  unfold printed statsPrint
  rw [← length_arranged perm]
  refine List.ext_getElem (by simp) fun i first second => ?_
  have inside : i < arranged.length := by simpa using second
  have inside' : i < (arranged.map Prod.fst).length := by rwa [List.length_map]
  rw [List.getElem_map, List.getElem_range, readNat_slot perm inside', List.getElem_map,
    List.getElem_map, readEntry_arranged perm (List.getElem_mem inside)]

/-! ## Arrangements by a rank -/

/-- The pointers by some rank, with `x` before the others of its rank. -/
theorem exists_arranged (stats : ParsedStats) (rank : Nat -> Nat) {x y : Nat × StatsEntry}
    (first : x ∈ stats.parsed) (second : y ∈ stats.parsed) (order : rank x.1 ≤ rank y.1)
    (different : x ≠ y) :
    exists arranged : List (Nat × StatsEntry), arranged.Perm stats.parsed ∧
      (arranged.Pairwise fun z w => rank z.1 ≤ rank w.1) ∧
      exists i j, exists (iIn : i < arranged.length) (jIn : j < arranged.length),
        i < j ∧ arranged[i] = x ∧ arranged[j] = y := by
  let key (z : Nat × StatsEntry) : Nat := 2 * rank z.1 + if z = x then 0 else 1
  let arranged := stats.parsed.mergeSort fun z w => decide (key z ≤ key w)
  have perm : arranged.Perm stats.parsed := List.mergeSort_perm _ _
  have sorted : arranged.Pairwise fun z w => key z ≤ key w := by
    refine (List.pairwise_mergeSort ?_ ?_ stats.parsed).imp fun le => of_decide_eq_true le
    · exact fun _ _ _ le le' => decide_eq_true
        ((of_decide_eq_true le).trans (of_decide_eq_true le'))
    · exact fun z w => by simpa using Nat.le_total (key z) (key w)
  refine ⟨arranged, perm, sorted.imp fun {z w} le => ?_, ?_⟩
  · dsimp only [key] at le
    split at le <;> split at le <;> omega
  · rcases List.getElem_of_mem (perm.mem_iff.mpr first) with ⟨i, iIn, atI⟩
    rcases List.getElem_of_mem (perm.mem_iff.mpr second) with ⟨j, jIn, atJ⟩
    refine ⟨i, j, iIn, jIn, ?_, atI, atJ⟩
    by_contra notBefore
    rcases Nat.lt_or_eq_of_le (Nat.le_of_not_lt notBefore) with before | same
    · have le := List.pairwise_iff_getElem.mp sorted j i jIn iIn before
      rw [atI, atJ] at le
      simp only [key, if_pos, if_neg (Ne.symm different)] at le
      omega
    · subst same
      exact different (atI.symm.trans atJ)

theorem sorted_of_rankedBy {rank : Nat -> Nat} (ranked : stats.RankedBy rank)
    (perm : arranged.Perm stats.parsed) :
    (forall i j, i < j -> j < arranged.length -> stats.compare arranged i j ≤ 0) <->
      arranged.Pairwise fun x y => rank x.1 ≤ rank y.1 := by
  rw [List.pairwise_iff_getElem]
  constructor
  · intro sorted i j iIn jIn less
    exact (ranked arranged perm i j iIn jIn).mp
      ((compare_nonpos perm iIn jIn).mp (sorted i j less jIn))
  · intro sorted i j less jIn
    have iIn := less.trans jIn
    exact (compare_nonpos perm iIn jIn).mpr
      ((ranked arranged perm i j iIn jIn).mpr (sorted i j iIn jIn less))

/-- What any ranked arrangement has in the order of time is in that order. -/
theorem time_le_of_arranged (inOrder : stats.PrintsInTimeOrder) (rank : Nat -> Nat)
    (may : forall arranged : List (Nat × StatsEntry), arranged.Perm stats.parsed ->
      (arranged.Pairwise fun z w => rank z.1 ≤ rank w.1) -> stats.QsortMay arranged)
    {x y : Nat × StatsEntry} (first : x ∈ stats.parsed) (second : y ∈ stats.parsed)
    (order : rank x.1 ≤ rank y.1) : x.2.time ≤ y.2.time := by
  by_cases same : x = y
  · rw [same]
  rcases exists_arranged stats rank first second order same with
    ⟨arranged, perm, sorted, i, j, iIn, jIn, before, atI, atJ⟩
  have prints := (inOrder arranged (may arranged perm sorted)).2
  rw [printed_eq perm, List.pairwise_map, List.pairwise_iff_getElem] at prints
  have times := prints i j iIn jIn before
  rwa [atI, atJ] at times

/-- The statistics are printed in the order of time exactly if there is no other
order of them, or the keys of the slots order the pointers in one way in every
arrangement and this is the order of time. -/
theorem printsInTimeOrder_iff (stats : ParsedStats) :
    stats.PrintsInTimeOrder <->
      (forall x, x ∈ stats.parsed -> forall y, y ∈ stats.parsed -> x.2.time = y.2.time) ∨
        exists rank, stats.RankedBy rank ∧
          forall x, x ∈ stats.parsed -> forall y, y ∈ stats.parsed ->
            rank x.1 ≤ rank y.1 -> x.2.time ≤ y.2.time := by
  constructor
  · intro inOrder
    by_cases consistent : stats.Consistent
    · rcases consistent_iff.mp consistent with ⟨rank, ranked⟩
      refine Or.inr ⟨rank, ranked, fun x first y second order => ?_⟩
      refine time_le_of_arranged inOrder rank (fun arranged perm sorted => ?_) first second order
      exact ⟨perm, fun _ => (sorted_of_rankedBy ranked perm).mpr sorted⟩
    · have le : forall x, x ∈ stats.parsed -> forall y, y ∈ stats.parsed -> x.2.time ≤ y.2.time :=
        fun x first y second => time_le_of_arranged inOrder (fun _ => 0)
          (fun _ perm _ => ⟨perm, fun itIs => absurd itIs consistent⟩) first second (Nat.le_refl 0)
      exact Or.inl fun x first y second =>
        Nat.le_antisymm (le x first y second) (le y second x first)
  · rintro condition arranged ⟨perm, sorted⟩
    rw [printed_eq perm, List.pairwise_map]
    refine ⟨@parsed_snd stats ▸ perm.map Prod.snd, ?_⟩
    rcases condition with same | ⟨rank, ranked, ordered⟩
    · refine List.pairwise_of_forall_mem_list fun x first y second => ?_
      exact (same x (perm.mem_iff.mp first) y (perm.mem_iff.mp second)).le
    · have byRank := (sorted_of_rankedBy ranked perm).mp
        (sorted (consistent_iff.mpr ⟨rank, ranked⟩))
      exact byRank.imp_of_mem fun {x y} first second le =>
        ordered x (perm.mem_iff.mp first) y (perm.mem_iff.mp second) le

/-- A slice of one task from CPU 0 after one second, one from CPU 1 after two. -/
def secondApart : List StatsEntry :=
  [⟨⟨1, 0⟩, 0, [⟨100, true, false, false, false, false, false⟩]⟩,
    ⟨⟨2, 0⟩, 1, [⟨101, true, false, false, false, false, false⟩]⟩]

/-- A mapping for 8 CPUs with these slices. -/
def twoParsed : ParsedStats where
  mem := (ByteMemory.write (fun _ => 0) 0x7f0000000000 (statsFormat.encodeAll secondApart)).write
    (0x7f0000000000 + 2 ^ 22)
    (ByteMemory.array 8 (statsFormat.starts 0x7f0000000000 secondApart))
  basePtr := 0x7f0000000000
  numCpus := 8
  recorded := secondApart
  counted := by simp [secondApart, StatsEntry.Counted]
  stored := by decide +kernel
  fits := by decide
  array := by decide +kernel
  address := by decide

/-- Of either arrangement the comparison finds the first slot greater. -/
theorem twoParsed_not_consistent : ¬twoParsed.Consistent := by
  rw [consistent_iff]
  rintro ⟨rank, ranked⟩
  have kept := ranked twoParsed.parsed (.refl _) 0 1 (by decide) (by decide)
  have swapped := ranked twoParsed.parsed.reverse (List.reverse_perm _) 0 1 (by decide) (by decide)
  have greater : ¬twoParsed.slotKey twoParsed.parsed 0 ≤ twoParsed.slotKey twoParsed.parsed 1 := by
    decide +kernel
  have greater' : ¬twoParsed.slotKey twoParsed.parsed.reverse 0 ≤
      twoParsed.slotKey twoParsed.parsed.reverse 1 := by
    decide +kernel
  exact (Nat.le_total _ _).elim (fun le => greater (kept.mpr le)) fun le => greater' (swapped.mpr le)

/-- They are swapped, and the later one is printed first. -/
theorem twoParsed_not_in_order : ¬twoParsed.PrintsInTimeOrder := by
  intro inOrder
  have may : twoParsed.QsortMay twoParsed.parsed.reverse :=
    ⟨List.reverse_perm _, fun consistent => absurd consistent twoParsed_not_consistent⟩
  exact absurd (inOrder _ may).2 (by decide +kernel)

end ParsedStats

end Stats
end Autolock
