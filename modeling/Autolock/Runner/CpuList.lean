import Autolock.Runner.AllowableCset
import Autolock.Runner.CpusetText
import Autolock.Util.ArgInteger
import Mathlib.Data.List.TakeWhile

namespace Autolock
namespace Runner

open Data Util Strtol

/-!
# The list of CPUs

`cpu_list_to_cpuset` reads number by number and skips one character behind each
of them, whatever it is.  A number may have white space and a sign in front of
it; only its lowest 32 bits are the number of a CPU.
-/

namespace CpuList

/-- The text of a sign, and whether it negates. -/
inductive SignText : CString -> Bool -> Prop
  | none : SignText [] false
  | plus : SignText ['+'] false
  | minus : SignText ['-'] true

/-- White space, a sign and digits, with the number that they denote. -/
inductive Numeral : CString -> Int -> Prop
  | intro {blanks signed ds : CString} {negative : Bool} {values : List Nat}
      (blank : forall c, c ∈ blanks -> isSpace c = true) (sign : SignText signed negative)
      (digits : ds.mapM (digit 10) = some values) (nonempty : ds ≠ []) :
      Numeral (blanks ++ (signed ++ ds)) (denoted negative (numeral 10 values))

/-- The number does not go on here. -/
def Ends (rest : CString) : Prop :=
  forall c, c ∈ rest.head? -> digit 10 c = none

/-- The numbers that a text begins with, each but the last one with one character behind it. -/
inductive Numbers : CString -> List Int -> Prop
  | none {text : CString} (no : forall s n rest, Numeral s n -> text ≠ s ++ rest) : Numbers text []
  | last {s : CString} {n : Int} (number : Numeral s n) : Numbers s [n]
  | next {s text : CString} {c : Char} {n : Int} {ns : List Int} (number : Numeral s n)
      (separates : digit 10 c = none) (others : Numbers text ns) :
      Numbers (s ++ c :: text) (n :: ns)

/-- The lowest 32 bits of what a `long` holds of the number. -/
def cpuOf (n : Int) : Nat :=
  (max (-2 ^ 63) (min (2 ^ 63 - 1) n) % 2 ^ 32).toNat

/-- The CPUs among the numbers. -/
def cpusOf (nprocs : Nat) (ns : List Int) : Finset Nat :=
  ((ns.map cpuOf).filter (· < nprocs)).toFinset

/-! ## One number -/

section number

variable {text s ds rest : CString} {values : List Nat} {n : Int}

theorem digits_append (are : ds.mapM (digit 10) = some values) (ends : Ends rest) :
    digits 10 (ds ++ rest) = (values, rest) := by
  induction ds generalizing values with
  | nil =>
      cases are
      cases rest with
      | nil => rfl
      | cons c rest =>
          have stops := ends c rfl
          simp only [List.nil_append, digits, stops, List.reverse_nil]
  | cons c ds inductionHypothesis =>
      rcases mapM_digit are (List.cons_ne_nil c ds) with ⟨_, d, _, values', same, rfl, is, others⟩
      cases same
      simp only [List.cons_append, digits, is, inductionHypothesis others]

theorem digits_split (text : CString) : exists ds,
    ds.mapM (digit 10) = some (digits 10 text).1 ∧ text = ds ++ (digits 10 text).2 ∧
      Ends (digits 10 text).2 := by
  induction text with
  | nil => exact ⟨[], rfl, rfl, fun _ member => absurd member (by simp [digits])⟩
  | cons c text inductionHypothesis =>
      cases is : digit 10 c with
      | none =>
          refine ⟨[], ?_, ?_, ?_⟩
          · simp only [digits, is, List.mapM_nil, Option.pure_def]
          · simp only [digits, is, List.nil_append]
          · simp only [Ends, digits, is, List.head?_cons, Option.mem_def, Option.some.injEq]
            rintro _ rfl
            exact is
      | some d =>
          rcases inductionHypothesis with ⟨ds, are, split, ends⟩
          refine ⟨c :: ds, ?_, ?_, ?_⟩
          · simp only [digits, is, List.mapM_cons, are, Option.pure_def, Option.bind_eq_bind,
              Option.bind_some]
          · simp only [digits, is, List.cons_append]
            exact congrArg (List.cons c) split
          · simp only [digits, is]
            exact ends

theorem SignText.sign_append {signed : CString} {negative : Bool} (is : SignText signed negative)
    (are : ds.mapM (digit 10) = some values) (nonempty : ds ≠ []) :
    sign (signed ++ (ds ++ rest)) = (negative, ds ++ rest) := by
  rcases mapM_digit are nonempty with ⟨c, d, ds', values', rfl, rfl, digit, -⟩
  cases is with
  | none => exact sign_of_digit digit (ds' ++ rest)
  | plus => rfl
  | minus => rfl

/-- White space ends at the sign or at the first digit. -/
theorem SignText.not_space {signed : CString} {negative : Bool} (is : SignText signed negative)
    (are : ds.mapM (digit 10) = some values) (nonempty : ds ≠ []) :
    (signed ++ (ds ++ rest)).dropWhile isSpace = signed ++ (ds ++ rest) := by
  rcases mapM_digit are nonempty with ⟨c, d, ds', values', rfl, rfl, digit, -⟩
  cases is with
  | none => exact List.dropWhile_cons_of_neg (by simp [isSpace_of_digit digit])
  | plus => exact List.dropWhile_cons_of_neg (by decide)
  | minus => exact List.dropWhile_cons_of_neg (by decide)

theorem exists_signText (text : CString) : exists signed,
    SignText signed (sign text).1 ∧ text = signed ++ (sign text).2 := by
  unfold sign
  split
  · exact ⟨_, .minus, rfl⟩
  · exact ⟨_, .plus, rfl⟩
  · exact ⟨_, .none, rfl⟩

/-- The number in front is read to its end. -/
theorem Numeral.strtol (number : Numeral s n) (ends : Ends rest) :
    Util.strtol (s ++ rest) 10 = (max (-2 ^ 63) (min (2 ^ 63 - 1) n), rest) := by
  rcases number with @⟨blanks, signed, ds, negative, values, blank, sign, are, nonempty⟩
  have found : values ≠ [] := by
    rcases mapM_digit are nonempty with ⟨c, d, ds', values', -, rfl, -, -⟩
    exact List.cons_ne_nil _ _
  have subject : subject 10 (blanks ++ (signed ++ ds) ++ rest) =
      some (negative, numeral 10 values, rest) := by
    rw [List.append_assoc, List.append_assoc, Strtol.subject, List.dropWhile_append_of_pos blank,
      sign.not_space are nonempty, sign.sign_append are nonempty]
    simp only [skipPrefix_ten, digits_append are ends, if_neg found]
  rw [Util.strtol, strtoll, subject]
  cases negative <;> simp only [denoted, Bool.false_eq_true, if_false, if_true] <;>
    refine Prod.ext ?_ rfl <;> dsimp only <;> omega

theorem Numeral.subject_ne_none (number : Numeral s n) (rest : CString) :
    subject 10 (s ++ rest) ≠ none := by
  rcases number with @⟨blanks, signed, ds, negative, values, blank, sign, are, nonempty⟩
  rw [List.append_assoc, List.append_assoc, subject, List.dropWhile_append_of_pos blank,
    sign.not_space are nonempty, sign.sign_append are nonempty]
  rcases mapM_digit are nonempty with ⟨c, d, ds', values', rfl, rfl, is, -⟩
  simp [skipPrefix_ten, Strtol.digits, is]

theorem exists_numeral (found : subject 10 text ≠ none) :
    exists s n rest, Numeral s n ∧ Ends rest ∧ text = s ++ rest := by
  rcases exists_signText (text.dropWhile isSpace) with ⟨signed, sign, withSign⟩
  rcases digits_split (Strtol.sign (text.dropWhile isSpace)).2 with ⟨ds, are, withDigits, ends⟩
  have blank : forall c, c ∈ text.takeWhile isSpace -> isSpace c = true :=
    fun c member => List.mem_takeWhile_imp member
  have nonempty : ds ≠ [] := by
    rintro rfl
    refine found ?_
    have empty := Option.some.inj are
    rw [List.reverse_nil] at empty
    rw [subject, skipPrefix_ten, if_pos empty.symm]
  refine ⟨_, _, _, .intro blank sign are nonempty, ends, ?_⟩
  rw [List.append_assoc, List.append_assoc, ← withDigits, ← withSign, List.takeWhile_append_dropWhile]

/-- Without a number in front nothing is read. -/
theorem strtol_none (no : forall s n rest, Numeral s n -> text ≠ s ++ rest) :
    strtol text 10 = (0, text) := by
  have none : subject 10 text = none := by
    by_contra found
    rcases exists_numeral found with ⟨s, n, rest, number, -, split⟩
    exact no s n rest number split
  rw [strtol, strtoll, none]

end number

/-! ## The loop -/

section loop

variable {nprocs : Nat} {text s rest : CString} {n : Int} {ns : List Int} {cset : Cpuset}

theorem Numeral.length_pos (number : Numeral s n) : 0 < s.length := by
  rcases number with @⟨blanks, signed, ds, negative, values, blank, sign, are, nonempty⟩
  have some := List.length_pos_iff.mpr nonempty
  simp only [List.length_append]
  omega

/-- Every text has numbers. -/
theorem exists_numbers (text : CString) : exists ns, Numbers text ns := by
  induction length : text.length using Nat.strong_induction_on generalizing text with
  | _ length' inductionHypothesis =>
      by_cases found : subject 10 text = none
      · refine ⟨[], .none ?_⟩
        rintro s n rest number rfl
        exact number.subject_ne_none rest found
      · rcases exists_numeral found with ⟨s, n, rest, number, ends, rfl⟩
        cases rest with
        | nil => exact ⟨[n], by rw [List.append_nil]; exact .last number⟩
        | cons c rest =>
            have less : rest.length < length' := by
              rw [← length, List.length_append, List.length_cons]
              omega
            rcases inductionHypothesis _ less rest rfl with ⟨ns, others⟩
            exact ⟨n :: ns, .next number (ends c rfl) others⟩

/-- The set with the CPU of a number. -/
def add (nprocs : Nat) (n : Int) (cset : Cpuset) : Cpuset :=
  if cpuOf n < nprocs then csetSet (cpuOf n) cset else cset

theorem cpus_add (fits : nprocs ≤ cpuSetsize) (n : Int) (cset : Cpuset) :
    (add nprocs n cset).cpus = cset.cpus ∪ cpusOf nprocs [n] := by
  rw [add, cpusOf]
  split
  · next below =>
      rw [cpus_csetSet (Nat.lt_of_lt_of_le below fits)]
      simp [below]
  · next above => simp [above]

theorem cpusOf_cons (n : Int) (ns : List Int) :
    cpusOf nprocs (n :: ns) = cpusOf nprocs [n] ∪ cpusOf nprocs ns := by
  rw [cpusOf, cpusOf, cpusOf, ← List.toFinset_append, ← List.filter_append, ← List.map_append,
    List.singleton_append]

theorem toNat_ofInt (n : Int) :
    (UInt32.ofInt (max (-2 ^ 63) (min (2 ^ 63 - 1) n))).toNat = cpuOf n := by
  rw [UInt32.ofInt, UInt32.toNat_ofNat', cpuOf, Nat.mod_eq_of_lt]
  omega

theorem cpuListPass_number (number : Numeral s n) (ends : Ends rest) :
    cpuListPass nprocs (s ++ rest, cset) =
      match rest with
      | [] => .done (add nprocs n cset)
      | _ :: rest => .again (rest, add nprocs n cset) := by
  have some := number.length_pos
  have moved : rest ≠ s ++ rest := by
    intro same
    have length := congrArg List.length same
    rw [List.length_append] at length
    omega
  simp only [cpuListPass, number.strtol ends, if_neg moved, toNat_ofInt, add]
  cases rest <;> rfl

theorem loop_numbers (fits : nprocs ≤ cpuSetsize) (numbers : Numbers text ns) (cset : Cpuset) :
    exists cset', loop (cpuListPass nprocs) (text.length + 1) (text, cset) = some cset' ∧
      cset'.cpus = cset.cpus ∪ cpusOf nprocs ns := by
  induction numbers generalizing cset with
  | none no =>
      refine ⟨cset, loop_done _ ?_, by simp [cpusOf]⟩
      rw [cpuListPass, strtol_none no]
      exact if_pos rfl
  | @last s n number =>
      have leaves : cpuListPass nprocs (s, cset) = .done (add nprocs n cset) := by
        rw [← List.append_nil s]
        exact cpuListPass_number number fun c member => absurd member (by simp)
      exact ⟨_, loop_done _ leaves, cpus_add fits n cset⟩
  | @next s text c n ns number separates _ inductionHypothesis =>
      have goes : cpuListPass nprocs (s ++ c :: text, cset) = .again (text, add nprocs n cset) := by
        refine cpuListPass_number number ?_
        rintro _ ⟨⟩
        exact separates
      rcases inductionHypothesis (add nprocs n cset) with ⟨cset', returns, cpus⟩
      have enough : text.length + 1 ≤ (s ++ c :: text).length := by
        rw [List.length_append, List.length_cons]
        omega
      refine ⟨cset', ?_, ?_⟩
      · rw [loop_again _ goes]
        exact loop_mono enough returns
      · rw [cpus, cpus_add fits, Finset.union_assoc, ← cpusOf_cons]

theorem numCpus_le (topology : Topology) : topology.numCpus ≤ cpuSetsize := by
  by_contra more
  have fits := topology.fits (Nat.lt_of_not_ge more)
  exact Nat.lt_irrefl _ fits

theorem setAllowableCset_numbers (topology : Topology) {passes : Nat}
    (enough : text.length < passes) (numbers : Numbers text ns) (numCpus : Int)
    (pinCpus preferHyperThreads : UInt32) :
    exists cset, cset.cpus = cpusOf topology.numCpus ns ∧
      setAllowableCset topology passes (some text) numCpus pinCpus preferHyperThreads =
        some (if cset.cpus = ∅ then .error .dieAssert else .ok (1, cset)) := by
  rcases loop_numbers (numCpus_le topology) numbers csetZero with ⟨cset, returns, cpus⟩
  refine ⟨cset, cpus.trans (Finset.empty_union _), ?_⟩
  simp only [setAllowableCset, shouldPinCpus, Option.isSome_some, Bool.true_or, Bool.not_true,
    Bool.false_eq_true, if_false, loop_mono enough returns, Option.map_some]
  by_cases empty : cset.cpus = ∅
  · rw [if_pos empty, csetEmpty_iff.mpr empty]
    rfl
  · have some : csetEmpty cset = false := by rwa [Bool.eq_false_iff, ne_eq, csetEmpty_iff]
    rw [if_neg empty, some]
    rfl

/-- Every text is read to the end of its numbers: the CPUs among them are in the set, and
there has to be one. -/
theorem cpuList_read (topology : Topology) (cpuList : CString) {passes : Nat}
    (enough : cpuList.length < passes) (numCpus : Int) (pinCpus preferHyperThreads : UInt32) :
    (exists ns, Numbers cpuList ns) ∧ forall ns, Numbers cpuList ns ->
      exists cset, cset.cpus = cpusOf topology.numCpus ns ∧
        setAllowableCset topology passes (some cpuList) numCpus pinCpus preferHyperThreads =
          some (if cset.cpus = ∅ then .error .dieAssert else .ok (1, cset)) :=
  ⟨exists_numbers cpuList, fun _ numbers =>
    setAllowableCset_numbers topology enough numbers numCpus pinCpus preferHyperThreads⟩

theorem cpuList_read_range :
    exists cset, cset.cpus = {0, 3} ∧
      setAllowableCset eightConf 4 (some ['0', '-', '3']) 0 0 0 = some (.ok (1, cset)) := by
  have zero : Numeral ['0'] 0 := @Numeral.intro [] [] ['0'] false [0] (by simp) .none rfl (by simp)
  have three : Numeral ['3'] 3 := @Numeral.intro [] [] ['3'] false [3] (by simp) .none rfl (by simp)
  have numbers : Numbers ['0', '-', '3'] [0, 3] := .next zero rfl (.last three)
  rcases (cpuList_read eightConf ['0', '-', '3'] (by decide : _ < 4) 0 0 0).2 _ numbers with
    ⟨cset, cpus, read⟩
  have both : cset.cpus = {0, 3} := cpus.trans (by decide)
  refine ⟨cset, both, read.trans ?_⟩
  rw [if_neg (by rw [both]; decide)]

end loop

/-! ## What has been printed -/

section printed

variable {text : CString} {cpus : List Nat}

theorem digit_of_isDigit {c : Char} (is : c.isDigit = true) :
    digit 10 c = some (c.toNat - '0'.toNat) := by
  rw [Char.isDigit, Bool.and_eq_true, decide_eq_true_iff, decide_eq_true_iff] at is
  have range : '0' ≤ c ∧ c ≤ '9' := is
  have below : c.toNat - '0'.toNat < 10 := by
    have high : c.toNat ≤ 57 := is.2
    have zero : '0'.toNat = 48 := rfl
    omega
  rw [digit, if_pos range, if_pos below]

theorem mapM_digit_of_isDigit {ds : CString} (are : forall c, c ∈ ds -> c.isDigit = true) :
    ds.mapM (digit 10) = some (ds.map fun c => c.toNat - '0'.toNat) := by
  induction ds with
  | nil => rfl
  | cons c ds inductionHypothesis =>
      rw [List.forall_mem_cons] at are
      simp only [List.mapM_cons, digit_of_isDigit are.1, inductionHypothesis are.2,
        Option.pure_def, Option.bind_eq_bind, Option.bind_some, List.map_cons]

theorem numeral_toDigits (n : Nat) :
    numeral 10 ((Nat.toDigits 10 n).map fun c => c.toNat - '0'.toNat) = n := by
  refine Eq.trans ?_ (Nat.ofDigitChars_ten_toDigits (n := n))
  rw [numeral, List.foldl_map, Nat.ofDigitChars_eq_foldl]
  simp only [Nat.mul_comm]

/-- `%4d` prints a number that is read back. -/
theorem numeral_padded (cpu : Nat) : Numeral (CsetToStr.padded cpu) cpu := by
  have are := mapM_digit_of_isDigit fun c member =>
    Nat.isDigit_of_mem_toDigits (b := 10) (n := cpu) (by decide) (by decide) member
  have blank : forall c, c ∈ List.replicate (4 - (Nat.toDigits 10 cpu).length) ' ' ->
      isSpace c = true := by
    intro c member
    rw [List.eq_of_mem_replicate member]
    decide
  have number := Numeral.intro blank .none are Nat.toDigits_ne_nil
  rw [numeral_toDigits] at number
  exact number

/-- The elements of the list, with the bracket behind them. -/
def elements (cpu : Nat) (cpus : List Nat) : CString :=
  CsetToStr.padded cpu ++ ((cpus.flatMap fun cpu => ',' :: CsetToStr.padded cpu) ++ [']'])

theorem openText_elements (cpu : Nat) (cpus : List Nat) :
    CsetToStr.openText (cpu :: cpus) ++ [']'] = '[' :: elements cpu cpus := by
  simp only [CsetToStr.openText, elements, List.cons_append, List.append_assoc]

theorem numbers_elements (cpu : Nat) (cpus : List Nat) :
    Numbers (elements cpu cpus) ((cpu :: cpus).map Int.ofNat) := by
  induction cpus generalizing cpu with
  | nil =>
      refine .next (numeral_padded cpu) (by decide) (.none ?_)
      intro s n rest number same
      have some := number.length_pos
      have length := congrArg List.length same
      rw [List.length_nil, List.length_append] at length
      omega
  | cons next cpus inductionHypothesis =>
      have split : elements cpu (next :: cpus) =
          CsetToStr.padded cpu ++ ',' :: elements next cpus := by
        simp only [elements, List.flatMap_cons, List.cons_append, List.append_assoc]
      rw [split]
      exact .next (numeral_padded cpu) (by decide) (inductionHypothesis next)

theorem zero_notMem_padded (cpu : Nat) : '\x00' ∉ CsetToStr.padded cpu := by
  intro member
  rcases List.mem_append.mp member with blank | digit
  · exact absurd (List.eq_of_mem_replicate blank) (by decide)
  · have is := Nat.isDigit_of_mem_toDigits (b := 10) (by decide) (by decide) digit
    exact absurd is (by decide)

theorem zero_notMem_elements (cpu : Nat) (cpus : List Nat) : '\x00' ∉ elements cpu cpus := by
  simp [elements, zero_notMem_padded]

theorem cpuOf_ofNat {cpu : Nat} (small : cpu < cpuSetsize) : cpuOf cpu = cpu := by
  rw [cpuSetsize] at small
  rw [cpuOf]
  omega

/-- The string that begins somewhere in a buffer. -/
def StringAt (buf : CsetToStr.Bytes) (offset : Nat) (text : CString) : Prop :=
  '\x00' ∉ text ∧ CsetToStr.Holds (fun i => buf (offset + i)) text

theorem cpusOf_sorted {nprocs : Nat} {cset : Cpuset}
    (below : forall cpu, cpu ∈ cset.cpus -> cpu < nprocs) :
    cpusOf nprocs ((cset.cpus.sort (· ≤ ·)).map Int.ofNat) = cset.cpus := by
  have same : ((cset.cpus.sort (· ≤ ·)).map Int.ofNat).map cpuOf = cset.cpus.sort (· ≤ ·) := by
    rw [List.map_map]
    refine (List.map_congr_left fun cpu member => ?_).trans (List.map_id _)
    exact cpuOf_ofNat (cset.fits cpu ((Finset.mem_sort _).mp member))
  rw [cpusOf, same, List.filter_eq_self.mpr, Finset.sort_toFinset]
  intro cpu member
  exact decide_eq_true (below cpu ((Finset.mem_sort _).mp member))

/-- The function returns if the buffer has room for the whole list. -/
theorem prints_returned {ncpus buflen : Nat} {cset : Cpuset}
    (below : forall cpu, cpu ∈ cset.cpus -> cpu < ncpus) (nonempty : cset.cpus ≠ ∅)
    (room : 5 * csetCount cset + 1 < buflen) :
    exists buf, CsetToStr.Prints ncpus buflen cset (.returned buf) ∧
      CsetToStr.Holds buf (CsetToStr.openText (cset.cpus.sort (· ≤ ·)) ++ [']']) := by
  have some : 0 < csetCount cset := Finset.card_pos.mpr (Finset.nonempty_iff_ne_empty.mpr nonempty)
  have length : (CsetToStr.openText (cset.cpus.sort (· ≤ ·))).length = 5 * csetCount cset := by
    rw [CsetToStr.openText_length fun cpu member => cset.fits cpu ((Finset.mem_sort _).mp member),
      Finset.length_sort]
    change max 1 (5 * csetCount cset) = _
    exact max_eq_right (by omega)
  have fits : (CsetToStr.openText (cset.cpus.sort (· ≤ ·))).length + 1 < buflen := by omega
  have nonzero : buflen ≠ 0 := Nat.ne_zero_of_lt room
  rcases CsetToStr.prints_sorted ncpus nonzero cset with ⟨buf, within, prints⟩
  rw [if_pos ⟨below, Nat.lt_of_succ_lt fits⟩] at prints
  rcases CsetToStr.close_of_room within prints.1 fits with ⟨buf', returned, -, holds⟩
  rw [returned] at prints
  exact ⟨buf', prints.2, holds⟩

/-- The list that is printed, without the bracket in front, is read as the set again. -/
theorem printed_read (topology : Topology) (cset : Cpuset) (nonempty : cset.cpus ≠ ∅)
    (below : forall cpu, cpu ∈ cset.cpus -> cpu < topology.numCpus) {buflen : Nat}
    (room : 5 * csetCount cset + 1 < buflen) (numCpus : Int) (pinCpus preferHyperThreads : UInt32) :
    exists buf text, CsetToStr.Prints topology.numCpus buflen cset (.returned buf) ∧
      buf 0 = some '[' ∧ StringAt buf 1 text ∧ forall passes, text.length < passes ->
        setAllowableCset topology passes (some text) numCpus pinCpus preferHyperThreads =
          some (.ok (1, cset)) := by
  rcases prints_returned below nonempty room with ⟨buf, prints, holds⟩
  cases sorted : cset.cpus.sort (· ≤ ·) with
  | nil =>
      refine absurd ?_ nonempty
      rw [← Finset.sort_toFinset cset.cpus (· ≤ ·), sorted, List.toFinset_nil]
  | cons cpu cpus =>
      rw [sorted, openText_elements] at holds
      refine ⟨buf, elements cpu cpus, prints, holds 0 (by simp), ⟨zero_notMem_elements cpu cpus, ?_⟩, ?_⟩
      · intro i inside
        dsimp only
        rw [Nat.add_comm, holds (i + 1) (by simpa using inside), List.cons_append,
          List.getElem?_cons_succ]
      · intro passes enough
        rcases setAllowableCset_numbers topology enough (numbers_elements cpu cpus) numCpus pinCpus
          preferHyperThreads with ⟨read, same, reads⟩
        rw [← sorted, cpusOf_sorted below] at same
        cases Cpuset.ext same
        rw [reads, if_neg nonempty]

theorem printed_read_all :
    exists buf text, CsetToStr.Prints 8 64 (csetAll 8) (.returned buf) ∧
      buf 0 = some '[' ∧ StringAt buf 1 text ∧ forall passes, text.length < passes ->
        setAllowableCset eightConf passes (some text) 0 0 0 = some (.ok (1, csetAll 8)) :=
  printed_read eightConf (csetAll 8) (by decide) (by decide) (by decide) 0 0 0

end printed

end CpuList

end Runner
end Autolock
