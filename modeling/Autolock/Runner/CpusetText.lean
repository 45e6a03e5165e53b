import Autolock.Data.Loop
import Autolock.Runner.Cpuset
import Autolock.Util.Strtol

namespace Autolock
namespace Runner

open Data Util

/-!
# `cset_to_str`

A set of CPUs is printed into a buffer, one CPU after the other with `snprintf`,
which gets what is left of the buffer as its size.  For the bracket at the end it
gets the size of the whole buffer.
-/

namespace CsetToStr

/-- What has been written, from the beginning of the buffer on. -/
abbrev Bytes := Nat -> Option Char

def untouched : Bytes := fun _ => none

def store (buf : Bytes) (offset : Nat) (s : CString) : Bytes := fun i =>
  if offset ≤ i ∧ i < offset + s.length then s[i - offset]? else buf i

/-- `snprintf(buf + offset, size, s)`: as much as fits is written, with a terminating zero. -/
def snprintf (buf : Bytes) (offset size : Nat) (s : CString) : Bytes :=
  if size = 0 then buf else store buf offset (s.take (size - 1) ++ ['\x00'])

/-- `%4d` -/
def padded (cpu : Nat) : CString :=
  List.replicate (4 - (Nat.toDigits 10 cpu).length) ' ' ++ Nat.toDigits 10 cpu

/-- `%s%4d` -/
def element (nwritten cpu : Nat) : CString :=
  (if nwritten ≤ 1 then [] else [',']) ++ padded cpu

structure Printer where
  buf : Bytes
  nwritten : Nat
  tmp : Cpuset

/-- The buffer when the function returns, or when the program dies. -/
inductive Outcome where
  | returned (buf : Bytes)
  | died (buf : Bytes)

def Outcome.buf : Outcome -> Bytes
  | .returned buf => buf
  | .died buf => buf

variable (ncpus buflen : Nat)

/-- The bracket at the end, and the assertions around it. -/
def close (buf : Bytes) (nwritten : Nat) : Outcome :=
  if nwritten < buflen then
    let buf := snprintf buf nwritten buflen [']']
    if nwritten + 1 < buflen then .returned buf else .died buf
  else .died buf

def pass (s : Printer) : Pass Printer Outcome :=
  if csetEmpty s.tmp then .done (close buflen s.buf s.nwritten)
  else
    match csetFirst ncpus s.tmp with
    | .error _ => .done (.died s.buf)
    | .ok none => .done (.died s.buf)
    | .ok (some cpu) =>
        if s.nwritten < buflen then
          let text := element s.nwritten cpu
          .again ⟨snprintf s.buf s.nwritten (buflen - s.nwritten) text, s.nwritten + text.length,
            csetClr cpu s.tmp⟩
        else .done (.died s.buf)

/-- `cset_to_str(buf, buflen, cset)` -/
def Prints (cset : Cpuset) (outcome : Outcome) : Prop :=
  if buflen = 0 then outcome = .died untouched
  else Returns (pass ncpus buflen) ⟨snprintf untouched 0 buflen ['['], 1, cset⟩ outcome

/-! ## What is expected -/

/-- The list without its closing bracket. -/
def openText : List Nat -> CString
  | [] => ['[']
  | cpu :: cpus => '[' :: padded cpu ++ cpus.flatMap fun cpu => ',' :: padded cpu

def Within (buf : Bytes) : Prop :=
  forall i, buflen ≤ i -> buf i = none

/-- The text and its terminating zero are at the beginning of the buffer. -/
def Holds (buf : Bytes) (text : CString) : Prop :=
  forall i, i < (text ++ ['\x00']).length -> buf i = (text ++ ['\x00'])[i]?

/-- The program dies or prints the list, and stays within the buffer in any case. -/
def AsExpected (cset : Cpuset) : Prop :=
  exists outcome, Prints ncpus buflen cset outcome ∧ Within buflen outcome.buf ∧
    forall buf, outcome = .returned buf ->
      Holds buf (openText (cset.cpus.sort (· ≤ ·)) ++ [']'])

/-! ## One write -/

section writes

variable {buflen} {buf : Bytes} {text s : CString} {size : Nat}

theorem snprintf_within (within : Within buflen buf) (offset : Nat)
    (fits : offset + min size (s.length + 1) ≤ buflen) :
    Within buflen (snprintf buf offset size s) := by
  intro i outside
  rw [snprintf]
  split
  · exact within i outside
  · rw [store, if_neg]
    · exact within i outside
    · rw [List.length_append, List.length_take, List.length_singleton]
      omega

/-- What has been printed goes on with what fits behind it. -/
theorem snprintf_holds (holds : Holds buf text) (fits : s.length < size) :
    Holds (snprintf buf text.length size s) (text ++ s) := by
  have whole : s.take (size - 1) = s := List.take_of_length_le (by omega)
  intro i inside
  rw [snprintf, if_neg (by omega), whole, store]
  simp only [List.length_append, List.length_singleton] at inside ⊢
  by_cases earlier : i < text.length
  · rw [if_neg (by omega), holds i (by simp; omega), List.append_assoc,
      List.getElem?_append_left earlier, List.getElem?_append_left earlier]
  · rw [if_pos (by omega), List.append_assoc]
    exact (List.getElem?_append_right (by omega)).symm

/-- The first write. -/
theorem snprintf_start (fits : s.length < size) : Holds (snprintf untouched 0 size s) s := by
  have whole : s.take (size - 1) = s := List.take_of_length_le (by omega)
  intro i inside
  rw [snprintf, if_neg (by omega), whole, store, if_pos (by omega), Nat.sub_zero]

end writes

/-! ## The text -/

theorem padded_length (cpu : Nat) : 4 ≤ (padded cpu).length := by
  rw [padded, List.length_append, List.length_replicate]
  omega

theorem openText_append (printed : List Nat) (cpu : Nat) :
    openText (printed ++ [cpu]) = openText printed ++ element (openText printed).length cpu := by
  cases printed with
  | nil => simp [openText, element]
  | cons first printed =>
      have long := padded_length first
      have several : ¬(openText (first :: printed)).length ≤ 1 := by
        simp only [openText, List.cons_append, List.length_cons, List.length_append]
        omega
      rw [element, if_neg several]
      simp [openText]

/-! ## The loop -/

section loop

variable {ncpus buflen}

theorem csetFirst_eq {cset : Cpuset} {cpu : Nat} {cpus : List Nat}
    (same : cset.cpus = (cpu :: cpus).toFinset) (ascending : (cpu :: cpus).Pairwise (· < ·)) :
    csetFirst ncpus cset = .ok (if cpu < ncpus then some cpu else none) := by
  have member : cpu ∈ cset.cpus := by simp [same]
  have nonempty : (!csetEmpty cset) = true := by
    rw [Bool.not_eq_true', Bool.eq_false_iff, ne_eq, csetEmpty_iff]
    rintro empty
    rw [empty] at member
    cases member
  have least : forall other, other ∈ cset.cpus -> cpu ≤ other := by
    intro other inside
    rw [same, List.mem_toFinset, List.mem_cons] at inside
    rcases inside with rfl | later
    · exact Nat.le_refl _
    · exact Nat.le_of_lt (List.rel_of_pairwise_cons ascending later)
  rw [csetFirst, dieAssert_of nonempty]
  refine congrArg Except.ok ?_
  by_cases below : cpu < ncpus
  · rw [if_pos below, List.find?_range_eq_some]
    refine ⟨csetIsset_iff.mpr member, List.mem_range.mpr below, fun other less => ?_⟩
    rw [Bool.not_eq_true', Bool.eq_false_iff, ne_eq, csetIsset_iff]
    exact fun inside => Nat.not_le_of_lt less (least other inside)
  · rw [if_neg below, List.find?_range_eq_none]
    intro other less
    rw [Bool.not_eq_true', Bool.eq_false_iff, ne_eq, csetIsset_iff]
    intro inside
    have := least other inside
    omega

/-- Some CPUs have been printed and the others are left. -/
structure Printed (buflen : Nat) (printed cpus : List Nat) (s : Printer) : Prop where
  left : s.tmp.cpus = cpus.toFinset
  within : Within buflen s.buf
  length : s.nwritten = (openText printed).length
  holds : s.nwritten < buflen -> Holds s.buf (openText printed)

theorem csetEmpty_cons {cset : Cpuset} {cpu : Nat} {cpus : List Nat}
    (same : cset.cpus = (cpu :: cpus).toFinset) : csetEmpty cset = false := by
  rw [Bool.eq_false_iff, ne_eq, csetEmpty_iff, same]
  simp

theorem Printed.step {printed cpus : List Nat} {cpu : Nat} {s : Printer}
    (inv : Printed buflen printed (cpu :: cpus) s) (ascending : (cpu :: cpus).Pairwise (· < ·))
    (below : cpu < ncpus) (room : s.nwritten < buflen) :
    exists s', pass ncpus buflen s = .again s' ∧ Printed buflen (printed ++ [cpu]) cpus s' := by
  refine ⟨⟨snprintf s.buf s.nwritten (buflen - s.nwritten) (element s.nwritten cpu),
    s.nwritten + (element s.nwritten cpu).length, csetClr cpu s.tmp⟩, ?_, ?_, ?_, ?_, ?_⟩
  · rw [pass, csetEmpty_cons inv.left, csetFirst_eq inv.left ascending, if_pos below]
    simp only [Bool.false_eq_true, if_false, room, if_true]
  · have missing : cpu ∉ cpus.toFinset := by
      rw [List.mem_toFinset]
      exact fun again => Nat.lt_irrefl _ (List.rel_of_pairwise_cons ascending again)
    change s.tmp.cpus.erase cpu = cpus.toFinset
    rw [inv.left, List.toFinset_cons, Finset.erase_insert missing]
  · exact snprintf_within inv.within _ (by omega)
  · rw [openText_append, List.length_append, ← inv.length]
  · intro fits
    have room' : (element s.nwritten cpu).length < buflen - s.nwritten := by
      dsimp only at fits
      omega
    have text := snprintf_holds (inv.holds room) room'
    rw [← inv.length] at text
    rw [openText_append, ← inv.length]
    exact text

theorem openText_length_le (printed cpus : List Nat) :
    (openText printed).length ≤ (openText (printed ++ cpus)).length := by
  induction cpus generalizing printed with
  | nil => rw [List.append_nil]
  | cons cpu cpus inductionHypothesis =>
      have next := inductionHypothesis (printed ++ [cpu])
      rw [openText_append, List.length_append, List.append_assoc] at next
      exact Nat.le_trans (Nat.le_add_right _ _) next

/-- The loop prints all the CPUs, or the program dies within the buffer. -/
theorem run_returns {cpus : List Nat} (ascending : cpus.Pairwise (· < ·)) {printed : List Nat}
    {s : Printer} (inv : Printed buflen printed cpus s) :
    exists buf, Within buflen buf ∧
      if (forall cpu, cpu ∈ cpus -> cpu < ncpus) ∧ (openText (printed ++ cpus)).length < buflen then
        Holds buf (openText (printed ++ cpus)) ∧
          Returns (pass ncpus buflen) s (close buflen buf (openText (printed ++ cpus)).length)
      else Returns (pass ncpus buflen) s (.died buf) := by
  induction cpus generalizing printed s with
  | nil =>
      have empty : csetEmpty s.tmp = true := csetEmpty_iff.mpr inv.left
      have leaves : pass ncpus buflen s = .done (close buflen s.buf s.nwritten) := by
        rw [pass, if_pos empty]
      refine ⟨s.buf, inv.within, ?_⟩
      rw [List.append_nil, ← inv.length]
      split
      · rename_i room
        exact ⟨inv.holds room.2, .done leaves⟩
      · rename_i full
        refine .done (leaves.trans ?_)
        rw [close, if_neg fun room => full ⟨fun cpu member => absurd member List.not_mem_nil, room⟩]
  | cons cpu cpus inductionHypothesis =>
      have more := openText_length_le printed (cpu :: cpus)
      rw [← inv.length] at more
      by_cases goes : cpu < ncpus ∧ s.nwritten < buflen
      · rcases inv.step ascending goes.1 goes.2 with ⟨s', turn, inv'⟩
        rcases inductionHypothesis ascending.of_cons inv' with ⟨buf, within, returns⟩
        refine ⟨buf, within, ?_⟩
        rw [List.append_assoc] at returns
        simpa [returns_again_iff turn, goes.1] using returns
      · refine ⟨s.buf, inv.within, ?_⟩
        rw [if_neg fun all => goes ⟨all.1 cpu List.mem_cons_self, Nat.lt_of_le_of_lt more all.2⟩]
        refine .done ?_
        rw [pass, csetEmpty_cons inv.left, csetFirst_eq inv.left ascending]
        by_cases below : cpu < ncpus
        · have full : ¬s.nwritten < buflen := fun room => goes ⟨below, room⟩
          simp only [Bool.false_eq_true, if_false, below, if_true, full]
        · simp only [Bool.false_eq_true, if_false, below]

/-- The write of the bracket at the end reaches beyond the buffer if it just fits. -/
theorem close_of_exact {buf : Bytes} {nwritten : Nat} (exact : nwritten + 1 = buflen)
    (some : nwritten ≠ 0) : ¬Within buflen (close buflen buf nwritten).buf := by
  intro within
  have outside := within buflen (Nat.le_refl _)
  have fits : [']'].take (buflen - 1) = [']'] := List.take_of_length_le (by simp; omega)
  rw [close, if_pos (by omega), if_neg (by omega)] at outside
  simp only [Outcome.buf, snprintf, if_neg (show buflen ≠ 0 by omega), fits, store] at outside
  rw [if_pos (by simp; omega)] at outside
  have index : buflen - nwritten = 1 := by omega
  rw [index] at outside
  cases outside

theorem close_of_room {buf : Bytes} {text : CString} (within : Within buflen buf)
    (holds : Holds buf text) (room : text.length + 1 < buflen) :
    exists buf', close buflen buf text.length = .returned buf' ∧ Within buflen buf' ∧
      Holds buf' (text ++ [']']) := by
  refine ⟨snprintf buf text.length buflen [']'], ?_, ?_, ?_⟩
  · rw [close, if_pos (by omega)]
    exact if_pos room
  · exact snprintf_within within _ (by rw [List.length_singleton]; omega)
  · exact snprintf_holds holds (by rw [List.length_singleton]; omega)

end loop

/-! ## When the buffer is overrun -/

section expected

variable {ncpus buflen : Nat} {cset : Cpuset}

/-- The outcome is what the loop and the bracket at the end make of the whole list. -/
theorem prints_sorted (ncpus : Nat) (nonzero : buflen ≠ 0) (cset : Cpuset) :
    exists buf, Within buflen buf ∧
      if (forall cpu, cpu ∈ cset.cpus -> cpu < ncpus) ∧
        (openText (cset.cpus.sort (· ≤ ·))).length < buflen
      then
        Holds buf (openText (cset.cpus.sort (· ≤ ·))) ∧
          Prints ncpus buflen cset
            (close buflen buf (openText (cset.cpus.sort (· ≤ ·))).length)
      else Prints ncpus buflen cset (.died buf) := by
  have start : Printed buflen [] (cset.cpus.sort (· ≤ ·))
      ⟨snprintf untouched 0 buflen ['['], 1, cset⟩ := by
    refine ⟨(Finset.sort_toFinset cset.cpus (· ≤ ·)).symm, ?_, rfl, fun room => ?_⟩
    · exact snprintf_within (fun _ _ => rfl) 0 (by omega)
    · exact snprintf_start room
  have ascending : (cset.cpus.sort (· ≤ ·)).Pairwise (· < ·) :=
    (Finset.sortedLT_sort cset.cpus).pairwise
  have returns := @run_returns ncpus _ _ ascending _ _ start
  simpa only [List.nil_append, Finset.mem_sort, Prints, if_neg nonzero] using returns

/-- The buffer is overrun exactly if the list without its closing bracket fills it
up to one byte. -/
theorem asExpected_iff_length :
    AsExpected ncpus buflen cset <->
      ¬((forall cpu, cpu ∈ cset.cpus -> cpu < ncpus) ∧
        (openText (cset.cpus.sort (· ≤ ·))).length + 1 = buflen) := by
  by_cases nonzero : buflen = 0
  · have prints : Prints ncpus buflen cset (.died untouched) := by
      rw [Prints, if_pos nonzero]
    refine iff_of_true ⟨_, prints, fun _ _ => rfl, ?_⟩ (by omega)
    rintro buf ⟨⟩
  rcases prints_sorted ncpus nonzero cset with ⟨buf, within, prints⟩
  have unique {outcome outcome' : Outcome} (first : Prints ncpus buflen cset outcome)
      (second : Prints ncpus buflen cset outcome') : outcome = outcome' := by
    rw [Prints, if_neg nonzero] at first second
    exact first.unique second
  split at prints
  · rename_i whole
    rcases prints with ⟨holds, closes⟩
    by_cases exact : (openText (cset.cpus.sort (· ≤ ·))).length + 1 = buflen
    · refine iff_of_false ?_ (not_not.mpr ⟨whole.1, exact⟩)
      rintro ⟨outcome, prints, inside, -⟩
      cases unique prints closes
      exact close_of_exact exact (by cases cset.cpus.sort (· ≤ ·) <;> simp [openText]) inside
    · refine iff_of_true ?_ fun overrun => exact overrun.2
      rcases close_of_room within holds (by omega) with ⟨buf', returned, within', holds'⟩
      rw [returned] at closes
      refine ⟨_, closes, within', ?_⟩
      rintro _ ⟨⟩
      exact holds'
  · rename_i dies
    refine iff_of_true ⟨_, prints, within, ?_⟩ fun overrun => dies ⟨overrun.1, by omega⟩
    rintro buf ⟨⟩

theorem padded_length_eq {cpu : Nat} (small : cpu < cpuSetsize) : (padded cpu).length = 4 := by
  have digits : (Nat.toDigits 10 cpu).length ≤ 4 :=
    (Nat.length_toDigits_le_iff (by decide) (by decide)).mpr (Nat.lt_trans small (by decide))
  rw [padded, List.length_append, List.length_replicate]
  omega

theorem elements_length {cpus : List Nat} (small : forall cpu, cpu ∈ cpus -> cpu < cpuSetsize) :
    (cpus.flatMap fun cpu => ',' :: padded cpu).length = 5 * cpus.length := by
  induction cpus with
  | nil => rfl
  | cons cpu cpus inductionHypothesis =>
      rw [List.forall_mem_cons] at small
      rw [List.flatMap_cons, List.length_append, inductionHypothesis small.2, List.length_cons,
        padded_length_eq small.1, List.length_cons]
      omega

/-- Every CPU takes four characters and what separates it from the one before. -/
theorem openText_length {cpus : List Nat} (small : forall cpu, cpu ∈ cpus -> cpu < cpuSetsize) :
    (openText cpus).length = max 1 (5 * cpus.length) := by
  cases cpus with
  | nil => rfl
  | cons cpu cpus =>
      rw [List.forall_mem_cons] at small
      rw [openText, List.length_append, List.length_cons, elements_length small.2,
        padded_length_eq small.1, List.length_cons]
      omega

/-- The function stays within the buffer unless all the CPUs of the set are there
and the buffer has one byte more than the list without its closing bracket. -/
theorem csetToStr_asExpected_iff :
    AsExpected ncpus buflen cset <->
      (exists cpu, cpu ∈ cset.cpus ∧ ncpus ≤ cpu) ∨ buflen ≠ max 1 (5 * csetCount cset) + 1 := by
  have length : (openText (cset.cpus.sort (· ≤ ·))).length = max 1 (5 * csetCount cset) := by
    rw [openText_length, Finset.length_sort]
    · rfl
    · exact fun cpu member => cset.fits cpu ((Finset.mem_sort _).mp member)
  rw [asExpected_iff_length, length, not_and_or, eq_comm]
  simp only [not_forall, not_lt, exists_prop]

/-- The first CPU alone, in a buffer of six bytes. -/
theorem firstCpu_overruns : ¬AsExpected 8 6 ⟨{0}, by decide⟩ := by
  rw [asExpected_iff_length, not_not, Finset.sort_singleton]
  decide

end expected

end CsetToStr

end Runner
end Autolock
