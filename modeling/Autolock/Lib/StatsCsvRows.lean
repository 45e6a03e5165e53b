import Autolock.Lib.StatsCsv

namespace Autolock
namespace Lib

open Util

/-!
# When the rows of the CSV line up

What is printed is a list of fields, with a comma before all but the first of a
row; an empty field at the beginning of a row leaves no trace.  The second row
has no values for the statistics from `min` to `variance`, so the rows line up
if none of these is asked for, and the description is not lost.
-/

/-! ## Fields and rows -/

/-- A row of fields. -/
def csvRow (fields : List CString) : CString :=
  [','].intercalate fields

theorem csvRow_cons (field : CString) (fields : List CString) :
    csvRow (field :: fields) = field ++ (fields.map (',' :: ·)).flatten := by
  induction fields generalizing field with
  | nil => simp [csvRow]
  | cons next fields inductionHypothesis =>
      have rest := inductionHypothesis next
      unfold csvRow at rest ⊢
      rw [List.intercalate_cons_cons, rest]
      simp

theorem newline_not_mem_csvRow {fields : List CString}
    (plain : forall field, field ∈ fields -> '\n' ∉ field) : '\n' ∉ csvRow fields := by
  cases fields with
  | nil => exact List.not_mem_nil
  | cons field fields =>
      rw [List.forall_mem_cons] at plain
      rw [csvRow_cons]
      intro member
      rcases List.mem_append.mp member with first | later
      · exact plain.1 first
      · rcases List.mem_flatten.mp later with ⟨piece, there, inside⟩
        rcases List.mem_map.mp there with ⟨next, member, rfl⟩
        rcases List.mem_cons.mp inside with comma | inside
        · exact absurd comma (by decide)
        · exact plain.2 next member inside

/-- The bytes of a row and its newline. -/
theorem csvRow_length {fields : List CString} (nonempty : fields ≠ []) :
    (csvRow fields).length + 1 = (fields.map fun field => field.length + 1).sum := by
  rcases List.exists_cons_of_ne_nil nonempty with ⟨field, rest, rfl⟩
  have commas : ((fun piece : CString => piece.length) ∘ fun field => ',' :: field) =
      fun field => field.length + 1 := rfl
  rw [csvRow_cons, List.length_append, List.length_flatten, List.map_map, commas, List.map_cons,
    List.sum_cons]
  exact Nat.add_right_comm _ _ _

/-- Fields that follow something other than a newline. -/
theorem foldl_glue_later {fields : List CString} {text : CString} (nonempty : text ≠ [])
    (noNewline : text.getLast? ≠ some '\n') (plain : forall field, field ∈ fields -> '\n' ∉ field) :
    fields.foldl glue text = text ++ (fields.map (',' :: ·)).flatten := by
  induction fields generalizing text with
  | nil => simp
  | cons field fields inductionHypothesis =>
      rw [List.forall_mem_cons] at plain
      have glued : glue text field = text ++ ',' :: field := by
        rw [glue, if_pos ⟨nonempty, noNewline⟩]
      rw [List.foldl_cons, glued, inductionHypothesis (by simp) ?_ plain.2]
      · simp
      · rw [List.getLast?_append_of_ne_nil _ (List.cons_ne_nil _ _)]
        intro last
        have member := List.mem_of_getLast? last
        rcases List.mem_cons.mp member with comma | inside
        · exact absurd comma (by decide)
        · exact plain.1 inside

/-- A row begins after a newline, or at the beginning. -/
theorem foldl_glue {field : CString} {fields : List CString} {text : CString}
    (begins : text = [] ∨ text.getLast? = some '\n') (nonempty : field ≠ [])
    (plain : forall f, f ∈ field :: fields -> '\n' ∉ f) :
    (field :: fields).foldl glue text = text ++ csvRow (field :: fields) := by
  have glued : glue text field = text ++ field := by
    rw [glue, if_neg]
    rintro ⟨some, other⟩
    rcases begins with none | newline
    · exact some none
    · exact other newline
  rw [List.forall_mem_cons] at plain
  rw [List.foldl_cons, glued, csvRow_cons, foldl_glue_later (by simp [nonempty]) ?_ plain.2]
  · simp
  · rw [List.getLast?_append_of_ne_nil _ nonempty]
    exact fun last => plain.1 (List.mem_of_getLast? last)

/-- An empty field at the beginning of a row is not to be seen. -/
theorem foldl_glue_empty {fields : List CString} {text : CString}
    (begins : text = [] ∨ text.getLast? = some '\n') :
    ([] :: fields).foldl glue text = fields.foldl glue text := by
  rw [List.foldl_cons, glue, if_neg, List.append_nil]
  rintro ⟨some, other⟩
  rcases begins with none | newline
  · exact some none
  · exact other newline

/-! ## Printing -/

/-- A function that prints changes the text as told, or dies because that does
not fit; it never writes behind the buffer. -/
def Emits (buflen : Nat) (prints : Prints) (extended : CString -> CString) : Prop :=
  forall b, b.top ≤ buflen ->
    match prints b with
    | .ok b' => b'.text = extended b.text ∧ b'.top ≤ buflen
    | .error b' => b'.top ≤ buflen ∧ buflen ≤ (extended b.text).length

section emits

variable {buflen : Nat} {prints prints' : Prints} {extended extended' : CString -> CString}

theorem Emits.bind (first : Emits buflen prints extended) (second : Emits buflen prints' extended')
    (grows : forall text, text.length ≤ (extended' text).length) :
    Emits buflen (fun b => prints b >>= prints') fun text => extended' (extended text) := by
  intro b inside
  have done := first b inside
  rcases result : prints b with b' | b' <;> rw [result] at done
  · simp only [result]
    exact ⟨done.1, done.2.trans (grows _)⟩
  · have done' := second b' done.2
    rw [done.1] at done'
    simp only [result]
    exact done'

theorem emits_doPrint (s : CString) : Emits buflen (doPrint buflen s) fun text => glue text s := by
  intro b inside
  have top : (if buflen - b.text.length = 0 then b.top
      else max b.top (b.text.length + min ((glue b.text s).length - b.text.length)
        (buflen - b.text.length - 1) + 1)) ≤ buflen := by
    split <;> omega
  simp only [doPrint]
  by_cases fits : (glue b.text s).length < buflen
  · rw [if_pos fits]
    exact ⟨rfl, top⟩
  · rw [if_neg fits]
    exact ⟨top, Nat.not_lt.mp fits⟩

theorem emits_putChar (c : Char) : Emits buflen (putChar buflen c) fun text => text ++ [c] := by
  intro b inside
  simp only [putChar]
  by_cases fits : b.text.length < buflen
  · rw [if_pos fits]
    refine ⟨rfl, ?_⟩
    dsimp only
    omega
  · rw [if_neg fits]
    refine ⟨inside, ?_⟩
    rw [List.length_append]
    omega

theorem glue_length_le (text s : CString) : text.length ≤ (glue text s).length := by
  rw [glue, List.length_append]
  exact Nat.le_add_right _ _

theorem foldl_glue_length_le (fields : List CString) (text : CString) :
    text.length ≤ (fields.foldl glue text).length := by
  induction fields generalizing text with
  | nil => exact Nat.le_refl _
  | cons field fields inductionHypothesis =>
      exact (glue_length_le text field).trans (inductionHypothesis (glue text field))

/-- All fields of a row. -/
def printAll (buflen : Nat) (fields : List CString) : Prints := fun b =>
  fields.foldlM (fun b s => doPrint buflen s b) b

theorem emits_printAll (fields : List CString) :
    Emits buflen (printAll buflen fields) fun text => fields.foldl glue text := by
  induction fields with
  | nil => exact fun b inside => ⟨rfl, inside⟩
  | cons field fields inductionHypothesis =>
      exact (emits_doPrint field).bind inductionHypothesis (foldl_glue_length_le fields)

end emits

/-! ## The two passes -/

section rows

variable {Double : Type} (fmt : ExponentFormat Double) (buflen : Nat)
  (stats : StatsResult Double) (toPrint : UInt32) (percentiles : List UInt32)

/-- The names that the first pass prints. -/
def headerFields : List CString :=
  "desc".toList ::
    ((StatsField.all.filter fun field => field.mask &&& toPrint ≠ 0).map StatsField.name ++
      if STATS_P_percentiles &&& toPrint ≠ 0 then percentiles.map percentileName else [])

/-- The value of a percentile that is supported. -/
def percentileValue (percentile : UInt32) : CString :=
  fmt.format (stats.percentiles (percentileIdx percentile))

/-- The values that the second pass prints. -/
def dataFields : List CString :=
  stats.desc ::
    if STATS_P_percentiles &&& toPrint ≠ 0 then percentiles.map (percentileValue fmt stats) else []

variable {toPrint percentiles}

theorem foldlM_filter {α β ε : Type} (p : α -> Prop) [DecidablePred p] (g : α -> CString)
    (f : β -> CString -> Except ε β) (xs : List α) (b : β) :
    xs.foldlM (fun b x => if p x then f b (g x) else .ok b) b =
      ((xs.filter fun x => p x).map g).foldlM f b := by
  induction xs generalizing b with
  | nil => rfl
  | cons x xs inductionHypothesis =>
      by_cases taken : p x
      · have kept : ((x :: xs).filter fun x => p x) = x :: xs.filter fun x => p x :=
          List.filter_cons_of_pos (decide_eq_true taken)
        rw [List.foldlM_cons, if_pos taken, kept, List.map_cons, List.foldlM_cons]
        exact congrArg (bind _) (funext inductionHypothesis)
      · have dropped : ((x :: xs).filter fun x => p x) = xs.filter fun x => p x :=
          List.filter_cons_of_neg (by simpa using taken)
        rw [List.foldlM_cons, if_neg taken, dropped]
        exact inductionHypothesis b

theorem printRow_header (header : STATS_P_csv_hdr &&& toPrint ≠ 0) :
    printRow fmt buflen stats toPrint percentiles 0 =
      printAll buflen (headerFields toPrint percentiles) := by
  funext b
  have fields : forall b, StatsField.all.foldlM
      (fun b field => checkPrint fmt buflen stats toPrint 0 field b) b =
      ((StatsField.all.filter fun field => field.mask &&& toPrint ≠ 0).map
        StatsField.name).foldlM (fun b s => doPrint buflen s b) b := by
    intro b
    simp only [checkPrint, header, ne_eq, not_false_eq_true, and_true, if_true, not_true, if_false]
    exact foldlM_filter (fun field : StatsField => ¬field.mask &&& toPrint = 0) StatsField.name
      (fun b s => doPrint buflen s b) StatsField.all b
  rw [printRow, if_pos ⟨rfl, header⟩, printAll, headerFields, List.foldlM_cons]
  refine congrArg (bind _) (funext fun b => ?_)
  beta_reduce
  rw [fields, List.foldlM_append]
  refine congrArg (bind _) (funext fun b => ?_)
  by_cases some : STATS_P_percentiles &&& toPrint ≠ 0
  · rw [if_pos some, if_pos some, List.foldlM_map]
    simp only [printPercentile, header, ne_eq, not_false_eq_true, and_true, if_true]
  · rw [if_neg some, if_neg some]
    rfl

/-- A supported percentile is found. -/
theorem statsGetPercentile_supported {percentile : UInt32}
    (supported : percentile ∈ supportedPercentiles) :
    statsGetPercentile stats percentile = some (stats.percentiles (percentileIdx percentile)) := by
  have found : supportedPercentiles.all fun p => percentileIdx p < supportedPercentiles.length := by
    decide
  have index := of_decide_eq_true (List.all_eq_true.mp found percentile supported)
  rw [statsGetPercentile, if_pos index]

theorem printRow_data
    (supported : forall percentile, percentile ∈ percentiles -> percentile ∈ supportedPercentiles) :
    printRow fmt buflen stats toPrint percentiles 1 =
      printAll buflen (dataFields fmt stats toPrint percentiles) := by
  funext b
  have fields : forall b, StatsField.all.foldlM
      (fun b field => checkPrint fmt buflen stats toPrint 1 field b) b = .ok b := by
    intro b
    simp only [checkPrint, one_ne_zero, false_and, if_false]
    rfl
  have values : forall b, percentiles.foldlM
      (fun b percentile => printPercentile fmt buflen stats toPrint 1 percentile b) b =
      (percentiles.map (percentileValue fmt stats)).foldlM (fun b s => doPrint buflen s b) b := by
    induction percentiles with
    | nil => exact fun _ => rfl
    | cons percentile percentiles inductionHypothesis =>
        rw [List.forall_mem_cons] at supported
        intro b
        rw [List.foldlM_cons, List.map_cons, List.foldlM_cons, printPercentile,
          if_neg (by simp), if_pos one_ne_zero, statsGetPercentile_supported stats supported.1]
        exact congrArg (bind _) (funext (inductionHypothesis supported.2))
  rw [printRow, if_neg (by simp), if_pos one_ne_zero, printAll, dataFields, List.foldlM_cons]
  refine congrArg (bind _) (funext fun b => ?_)
  beta_reduce
  rw [fields]
  by_cases some : STATS_P_percentiles &&& toPrint ≠ 0
  · rw [if_pos some]
    exact (if_pos some).trans (values b)
  · rw [if_neg some]
    exact if_neg some

end rows

end Lib
end Autolock
