import Autolock.Data.RecordStream
import Autolock.Stats.Recording

namespace Autolock
namespace Stats

open Data

/-!
# How the user reads the statistics

`autolock-stats.c` declares the entries once more, finds the number of tasks in
each and walks from one to the next until the bytes that the system call has
reported are used up.  The buffer for the bytes and the array of pointers are
one allocation; the array has room for as many entries as could start in the
buffer if each had one task.
-/

/-- One bit of a word. -/
def bit (word i : Nat) : Bool :=
  word / 2 ^ i % 2 == 1

/-- `kernel_autolock_stats_task_entry_t` -/
def TaskEntry.ofWord (word : Nat) : TaskEntry where
  pid := BitVec.ofNat 26 word
  isPick := bit word 26
  isCurr := bit word 27
  alExists := bit word 28
  alArmed := bit word 29
  alHasPinned := bit word 30
  alDontSched := bit word 31

/-- `entry->nentries` -/
def nentries (mem : ByteMemory) (p : Nat) : Nat := mem.readNat (p + 20) 4

/-- The entry at an address, through `kernel_autolock_stats_entry_t`. -/
def readEntry (mem : ByteMemory) (p : Nat) : StatsEntry where
  ts := ⟨UInt64.ofNat (mem.readNat p 8), UInt64.ofNat (mem.readNat (p + 8) 8)⟩
  cpu := UInt32.ofNat (mem.readNat (p + 16) 4)
  entries := (List.range (nentries mem p)).map fun i =>
    TaskEntry.ofWord (mem.readNat (p + 24 + 4 * i) 4)

/-- `I_autolock_stats_entry_get_size` -/
def entryGetSize (mem : ByteMemory) (p : Nat) : Nat := 24 + nentries mem p * 4

def autolockGetBufSize (numCpus : Nat) : Nat := 2 ^ 19 * numCpus

def autolockGetMaxEntries (numCpus : Nat) : Nat := autolockGetBufSize numCpus / (24 + 4)

/-- `I_autolock_parse_stats`: the entries that have been stored in the array when
the loop ends, `none` if the assertion fails. -/
def autolockParseStats (mem : ByteMemory) (basePtr expecBytes : Nat) (entries : List Nat) :
    Option (List Nat) :=
  if expecBytes = 0 then some entries
  else
    let curSz := entryGetSize mem basePtr
    -- `die_assert(expec_bytes >= 0)`
    if expecBytes < curSz then none
    else autolockParseStats mem (basePtr + curSz) (expecBytes - curSz) (entries ++ [basePtr])
termination_by expecBytes
decreasing_by
  simp only [entryGetSize]
  omega

/-! ## What the kernel writes is what the user reads -/

theorem TaskEntry.word_lt (entry : TaskEntry) : entry.word < 2 ^ 32 := by
  have pid := entry.pid.isLt
  have flag : forall b : Bool, b.toNat ≤ 1 := Bool.toNat_le
  have := flag entry.isPick
  have := flag entry.isCurr
  have := flag entry.alExists
  have := flag entry.alArmed
  have := flag entry.alHasPinned
  have := flag entry.alDontSched
  simp only [word]
  omega

theorem bit_eq {word i : Nat} {b : Bool} (there : word / 2 ^ i % 2 = b.toNat) :
    bit word i = b := by
  cases b <;> simp [bit, there]

/-- The bit fields are where the user expects them. -/
theorem TaskEntry.ofWord_word (entry : TaskEntry) : TaskEntry.ofWord entry.word = entry := by
  rcases entry with ⟨pid, isPick, isCurr, alExists, alArmed, alHasPinned, alDontSched⟩
  have small := pid.isLt
  have := Bool.toNat_le isPick
  have := Bool.toNat_le isCurr
  have := Bool.toNat_le alExists
  have := Bool.toNat_le alArmed
  have := Bool.toNat_le alHasPinned
  have := Bool.toNat_le alDontSched
  rw [ofWord, mk.injEq]
  refine ⟨BitVec.eq_of_toNat_eq ?_, bit_eq ?_, bit_eq ?_, bit_eq ?_, bit_eq ?_, bit_eq ?_,
    bit_eq ?_⟩
  · simp only [BitVec.toNat_ofNat, word]
    omega
  all_goals
    simp only [word]
    omega

section layout

variable {mem : ByteMemory} {p : Nat} {entry : StatsEntry}

/-- The parts of an entry and where they lie. -/
theorem holds_entry (holds : mem.Holds p entry.bytes) :
    mem.Holds p (ByteMemory.littleEndian 8 entry.ts.sec.toNat) ∧
      mem.Holds (p + 8) (ByteMemory.littleEndian 8 entry.ts.nsec.toNat) ∧
      mem.Holds (p + 16) (ByteMemory.littleEndian 4 entry.cpu.toNat) ∧
      mem.Holds (p + 20) (ByteMemory.littleEndian 4 entry.entries.length) ∧
      mem.Holds (p + 24) (entriesBytes entry.entries) := by
  simp only [StatsEntry.bytes, Timespec.bytes, countBytes, ByteMemory.holds_append,
    List.length_append, ByteMemory.littleEndian_length] at holds
  rcases holds with ⟨⟨⟨sec, nsec⟩, cpu, count⟩, tasks⟩
  exact ⟨sec, nsec, cpu, count, tasks⟩

theorem nentries_eq (few : entry.entries.length < 2 ^ 32) (holds : mem.Holds p entry.bytes) :
    nentries mem p = entry.entries.length := by
  rcases holds_entry holds with ⟨_, _, _, count, _⟩
  exact ByteMemory.readNat_eq count few

/-- Every task of a slice is read as it was added. -/
theorem map_ofWord {entries : List TaskEntry} (holds : mem.Holds p (entriesBytes entries)) :
    (List.range entries.length).map (fun i => TaskEntry.ofWord (mem.readNat (p + 4 * i) 4)) =
      entries := by
  induction entries generalizing p with
  | nil => rfl
  | cons task entries inductionHypothesis =>
      have whole : entriesBytes (task :: entries) = task.bytes ++ entriesBytes entries := rfl
      rw [whole, ByteMemory.holds_append, TaskEntry.bytes_length] at holds
      have first : mem.readNat p 4 = task.word := ByteMemory.readNat_eq holds.1 task.word_lt
      rw [List.length_cons, List.range_succ_eq_map, List.map_cons, List.map_map, Nat.mul_zero,
        Nat.add_zero, first, TaskEntry.ofWord_word]
      refine congrArg (task :: ·) (Eq.trans ?_ (inductionHypothesis holds.2))
      refine List.map_congr_left fun i _ => ?_
      simp only [Function.comp_apply, taskEntrySize, Nat.mul_succ, Nat.add_assoc, Nat.add_comm 4]

theorem readEntry_eq (few : entry.entries.length < 2 ^ 32) (holds : mem.Holds p entry.bytes) :
    readEntry mem p = entry := by
  rcases holds_entry holds with ⟨sec, nsec, cpu, _, tasks⟩
  rw [readEntry, nentries_eq few holds, map_ofWord tasks,
    ByteMemory.readNat_eq sec entry.ts.sec.toNat_lt,
    ByteMemory.readNat_eq nsec entry.ts.nsec.toNat_lt,
    ByteMemory.readNat_eq cpu entry.cpu.toNat_lt, UInt64.ofNat_toNat, UInt64.ofNat_toNat,
    UInt32.ofNat_toNat]

end layout

/-- The layout that the two declarations of the entry share. -/
def statsFormat : RecordFormat StatsEntry where
  Valid := fun entry => entry.entries.length < 2 ^ 32
  encode := StatsEntry.bytes
  sizeAt := entryGetSize
  readAt := readEntry
  sizeAt_pos := by
    intro mem p
    rw [entryGetSize]
    omega
  sizeAt_eq := by
    intro mem p entry few holds
    rw [entryGetSize, nentries_eq few holds, StatsEntry.bytes_length, entrySize, taskEntrySize,
      Nat.mul_comm]
  readAt_eq := readEntry_eq

/-- The loop walks through the entries and stores where they start. -/
theorem autolockParseStats_eq (mem : ByteMemory) (basePtr expecBytes : Nat) (entries : List Nat) :
    autolockParseStats mem basePtr expecBytes entries =
      (statsFormat.walk mem basePtr expecBytes).map (entries ++ ·) := by
  fun_induction autolockParseStats mem basePtr expecBytes entries with
  | case1 =>
      rw [RecordFormat.walk_zero]
      simp
  | case2 basePtr expecBytes entries some curSz short =>
      have short' : expecBytes < statsFormat.sizeAt mem basePtr := short
      rw [RecordFormat.walk, if_neg some, if_pos short']
      rfl
  | case3 basePtr expecBytes entries some curSz enough inductionHypothesis =>
      have enough' : statsFormat.sizeAt mem basePtr ≤ expecBytes := Nat.not_lt.mp enough
      rw [inductionHypothesis, RecordFormat.walk_of_le enough', Option.map_map]
      congr 1
      funext rest
      simp

end Stats
end Autolock
