import Autolock.Lib.StatsCsvRows

namespace Autolock
namespace Lib

open Util

/-!
# The rows of the CSV line up

The text is known as a whole: a row of names, and a row of values without those
from `min` to `variance`.  Both are split at their commas and compared.
-/

/-! ## The text -/

/-- What is to be seen of the fields of a row. -/
def seen : List CString -> List CString
  | [] :: next :: fields => next :: fields
  | fields => fields

theorem seen_mem {fields : List CString} {field : CString} (member : field ∈ seen fields) :
    field ∈ fields := by
  unfold seen at member
  split at member
  · exact List.mem_cons_of_mem _ member
  · exact member

theorem seen_of_ne_nil {first : CString} (nonempty : first ≠ []) (fields : List CString) :
    seen (first :: fields) = first :: fields := by
  unfold seen
  split
  · rename_i same
    exact absurd (List.cons.inj same).1 nonempty
  · rfl

theorem seen_length (first : CString) (fields : List CString) :
    (seen (first :: fields)).length =
      if first = [] ∧ fields ≠ [] then fields.length else fields.length + 1 := by
  by_cases empty : first = []
  · subst empty
    cases fields <;> rfl
  · rw [seen_of_ne_nil empty, if_neg fun both => empty both.1, List.length_cons]

theorem seen_ne_nil {fields : List CString} (row : fields ≠ []) : seen fields ≠ [] := by
  unfold seen
  split
  · exact List.cons_ne_nil _ _
  · exact row

/-- Only the first field of a row may be empty. -/
theorem foldl_glue_seen {first : CString} {fields : List CString} {text : CString}
    (begins : text = [] ∨ text.getLast? = some '\n') (nonempty : forall f, f ∈ fields -> f ≠ [])
    (plain : forall f, f ∈ first :: fields -> '\n' ∉ f) :
    (first :: fields).foldl glue text = text ++ csvRow (seen (first :: fields)) := by
  by_cases empty : first = []
  · subst empty
    rw [foldl_glue_empty begins]
    cases fields with
    | nil => exact (List.append_nil text).symm
    | cons next fields =>
        exact foldl_glue begins (nonempty next List.mem_cons_self)
          fun f member => plain f (List.mem_cons_of_mem _ member)
  · rw [seen_of_ne_nil empty]
    exact foldl_glue begins empty plain

section text

variable {Double : Type} (fmt : ExponentFormat Double) (buflen : Nat)
  (stats : StatsResult Double) (toPrint : UInt32) (percentiles : List UInt32)

/-- Both rows with their newlines. -/
def csvText : CString :=
  csvRow (headerFields toPrint percentiles) ++
    '\n' :: (csvRow (seen (dataFields fmt stats toPrint percentiles)) ++ ['\n'])

/-- The bytes that both rows take. -/
def csvBytes : Nat :=
  ((headerFields toPrint percentiles ++ seen (dataFields fmt stats toPrint percentiles)).map
    fun field => field.length + 1).sum

theorem csvText_length :
    (csvText fmt stats toPrint percentiles).length = csvBytes fmt stats toPrint percentiles := by
  have header : headerFields toPrint percentiles ≠ [] := List.cons_ne_nil _ _
  have values : dataFields fmt stats toPrint percentiles ≠ [] := List.cons_ne_nil _ _
  rw [csvBytes, List.map_append, List.sum_append, ← csvRow_length header,
    ← csvRow_length (seen_ne_nil values), csvText]
  simp only [List.length_append, List.length_cons, List.length_nil]
  omega

variable {toPrint percentiles}

/-- No name has a comma or a newline in it. -/
theorem headerFields_plain
    (supported : forall percentile, percentile ∈ percentiles -> percentile ∈ supportedPercentiles)
    {field : CString} (member : field ∈ headerFields toPrint percentiles) :
    ',' ∉ field ∧ '\n' ∉ field := by
  have fields : forall f : StatsField, ',' ∉ f.name ∧ '\n' ∉ f.name := by
    intro f
    cases f <;> decide
  have names : supportedPercentiles.all fun p =>
      ',' ∉ percentileName p ∧ '\n' ∉ percentileName p := by decide
  rcases List.mem_cons.mp member with rfl | member
  · decide
  · rcases List.mem_append.mp member with member | member
    · rcases List.mem_map.mp member with ⟨f, -, rfl⟩
      exact fields f
    · split at member
      · rcases List.mem_map.mp member with ⟨p, there, rfl⟩
        exact of_decide_eq_true (List.all_eq_true.mp names p (supported p there))
      · exact absurd member List.not_mem_nil

/-- The values are printed with `%E`. -/
theorem dataFields_tail {field : CString}
    (member : field ∈ (dataFields fmt stats toPrint percentiles).tail) :
    exists x, field = fmt.format x := by
  rw [dataFields, List.tail_cons] at member
  split at member
  · rcases List.mem_map.mp member with ⟨p, -, rfl⟩
    exact ⟨_, rfl⟩
  · exact absurd member List.not_mem_nil

theorem dataFields_plain (noComma : ',' ∉ stats.desc) (noNewline : '\n' ∉ stats.desc)
    {field : CString} (member : field ∈ dataFields fmt stats toPrint percentiles) :
    ',' ∉ field ∧ '\n' ∉ field := by
  rcases List.mem_cons.mp member with rfl | member
  · exact ⟨noComma, noNewline⟩
  · rcases dataFields_tail fmt stats member with ⟨x, rfl⟩
    exact ⟨fmt.noComma x, fmt.noNewline x⟩

/-- Both passes print the rows. -/
theorem emits_printRows (header : STATS_P_csv_hdr &&& toPrint ≠ 0)
    (both : STATS_P_csv_hdr_only &&& toPrint = 0)
    (supported : forall percentile, percentile ∈ percentiles -> percentile ∈ supportedPercentiles) :
    Emits buflen (printRows fmt buflen stats toPrint percentiles 2 0) fun text =>
      (dataFields fmt stats toPrint percentiles).foldl glue
        ((headerFields toPrint percentiles).foldl glue text ++ ['\n']) ++ ['\n'] := by
  have grows : forall text : CString, text.length ≤ (text ++ ['\n']).length := fun text => by simp
  have done : Emits buflen (fun b => .ok b) fun text => text := fun b inside => ⟨rfl, inside⟩
  have second := (@emits_printAll buflen (dataFields fmt stats toPrint percentiles)).bind
    ((emits_putChar '\n').bind done fun _ => Nat.le_refl _) grows
  have first := (@emits_printAll buflen (headerFields toPrint percentiles)).bind
    ((emits_putChar '\n').bind second fun text =>
      (foldl_glue_length_le (dataFields fmt stats toPrint percentiles) text).trans (grows _))
    fun text => (grows text).trans
      ((foldl_glue_length_le (dataFields fmt stats toPrint percentiles) _).trans (grows _))
  simp only [printRows, printRow_header fmt buflen stats header,
    printRow_data fmt buflen stats supported, both, ne_eq, not_true, if_false]
  exact first

/-- The fields of both rows, as they are printed. -/
theorem foldl_glue_rows
    (supported : forall percentile, percentile ∈ percentiles -> percentile ∈ supportedPercentiles)
    (noComma : ',' ∉ stats.desc) (noNewline : '\n' ∉ stats.desc) :
    (dataFields fmt stats toPrint percentiles).foldl glue
      ((headerFields toPrint percentiles).foldl glue [] ++ ['\n']) ++ ['\n'] =
      csvText fmt stats toPrint percentiles := by
  have names : (headerFields toPrint percentiles).foldl glue [] =
      csvRow (headerFields toPrint percentiles) :=
    foldl_glue (Or.inl rfl) (by decide) fun _ member => (headerFields_plain supported member).2
  have values : forall text, text.getLast? = Option.some '\n' ->
      (dataFields fmt stats toPrint percentiles).foldl glue text =
        text ++ csvRow (seen (dataFields fmt stats toPrint percentiles)) := by
    intro text newline
    refine foldl_glue_seen (Or.inr newline) ?_
      fun _ member => (dataFields_plain fmt stats noComma noNewline member).2
    intro field member
    rcases dataFields_tail fmt stats member with ⟨x, rfl⟩
    exact fmt.nonempty x
  rw [names, values _ List.getLast?_concat, csvText]
  simp

/-- Everything is printed if it fits with its terminating zero. -/
theorem statsPrintsCsvArr_result (some : stats.hasStats ≠ 0)
    (header : STATS_P_csv_hdr &&& toPrint ≠ 0) (both : STATS_P_csv_hdr_only &&& toPrint = 0)
    (supported : forall percentile, percentile ∈ percentiles -> percentile ∈ supportedPercentiles)
    (noComma : ',' ∉ stats.desc) (noNewline : '\n' ∉ stats.desc) :
    match statsPrintsCsvArr fmt buflen stats toPrint percentiles with
    | .ok b => b.text = csvText fmt stats toPrint percentiles ++ [Char.ofNat 0] ∧
        b.top ≤ buflen ∧ csvBytes fmt stats toPrint percentiles < buflen
    | .error b => b.top ≤ buflen ∧ buflen ≤ csvBytes fmt stats toPrint percentiles := by
  have mask : toPrint ≠ 0 := by
    rintro rfl
    exact header (by decide)
  have printed := emits_printRows fmt buflen stats header both supported ⟨[], 0⟩ (Nat.zero_le _)
  beta_reduce at printed
  rw [foldl_glue_rows fmt stats supported noComma noNewline] at printed
  simp only [statsPrintsCsvArr, if_neg some, if_neg mask]
  rcases result : printRows fmt buflen stats toPrint percentiles 2 0 ⟨[], 0⟩ with b | b <;>
    rw [result] at printed
  · exact ⟨printed.1, csvText_length fmt stats toPrint percentiles ▸ printed.2⟩
  · have zero := @emits_putChar buflen (Char.ofNat 0) b printed.2
    have long := csvText_length fmt stats toPrint percentiles
    rw [← printed.1] at long
    change match putChar buflen (Char.ofNat 0) b with | .ok b => _ | .error b => _
    by_cases fits : b.text.length < buflen
    · have done : putChar buflen (Char.ofNat 0) b =
          .ok ⟨b.text ++ [Char.ofNat 0], max b.top (b.text.length + 1)⟩ := if_pos fits
      rw [done] at zero ⊢
      exact ⟨congrArg (· ++ [Char.ofNat 0]) printed.1, zero.2, long ▸ fits⟩
    · have dies : putChar buflen (Char.ofNat 0) b = .error b := if_neg fits
      rw [dies]
      exact ⟨printed.2, long ▸ Nat.not_lt.mp fits⟩

end text

/-! ## The values below the names -/

section aligned

variable {Double : Type} (fmt : ExponentFormat Double) (stats : StatsResult Double)

/-- The statistics and their values, by name. -/
def statistics : List (CString × CString) :=
  ("desc".toList, stats.desc) ::
    (StatsField.all.map fun field => (field.name, fmt.format (stats.field field))) ++
    supportedPercentiles.map fun percentile =>
      (percentileName percentile, percentileValue fmt stats percentile)

/-- A name, and its value, are found once. -/
theorem statistics_lookup {name value : CString} (member : (name, value) ∈ statistics fmt stats) :
    (statistics fmt stats).lookup name = some value := by
  have names : ((statistics fmt stats).map Prod.fst).Nodup := by
    have closed : (statistics fmt stats).map Prod.fst =
        "desc".toList :: StatsField.all.map StatsField.name ++
          supportedPercentiles.map percentileName := by
      simp [statistics, Function.comp_def]
    rw [closed]
    decide
  rcases List.append_of_mem member with ⟨before, after, split⟩
  refine List.lookup_eq_some_iff.mpr ⟨before, after, split, fun pair there => ?_⟩
  rw [split, List.map_append, List.map_cons] at names
  rw [bne_iff_ne]
  rintro same
  exact (List.nodup_append.mp names).2.2 pair.1 (List.mem_map_of_mem there) name
    List.mem_cons_self same.symm

/-- Two rows with the same number of fields, the field below a name being the
value of the statistic it names. -/
def LinesUp (text : CString) : Prop :=
  exists header values : CString,
    text.splitOn '\n' = [header, values, [Char.ofNat 0]] ∧
      (header.splitOn ',').map (fun name => (statistics fmt stats).lookup name) =
        (values.splitOn ',').map some

/-- The program dies because the rows do not fit, or the rows line up; nothing is
written behind the buffer. -/
def PrintsLinedUp (buflen : Nat) (toPrint : UInt32) (percentiles : List UInt32) : Prop :=
  match statsPrintsCsvArr fmt buflen stats toPrint percentiles with
  | .ok b => LinesUp fmt stats b.text ∧ b.top ≤ buflen
  | .error b => buflen ≤ csvBytes fmt stats toPrint percentiles ∧ b.top ≤ buflen

variable {fmt stats}

/-- The text, split into its rows and fields. -/
theorem linesUp_csvText_iff {toPrint : UInt32} {percentiles : List UInt32}
    (supported : forall percentile, percentile ∈ percentiles -> percentile ∈ supportedPercentiles)
    (noComma : ',' ∉ stats.desc) (noNewline : '\n' ∉ stats.desc) :
    LinesUp fmt stats (csvText fmt stats toPrint percentiles ++ [Char.ofNat 0]) <->
      (headerFields toPrint percentiles).map (fun name => (statistics fmt stats).lookup name) =
        (seen (dataFields fmt stats toPrint percentiles)).map some := by
  have names : forall f, f ∈ headerFields toPrint percentiles -> ',' ∉ f ∧ '\n' ∉ f :=
    fun f member => headerFields_plain supported member
  have values : forall f, f ∈ seen (dataFields fmt stats toPrint percentiles) ->
      ',' ∉ f ∧ '\n' ∉ f :=
    fun f member => dataFields_plain fmt stats noComma noNewline (seen_mem member)
  have rows : (csvText fmt stats toPrint percentiles ++ [Char.ofNat 0]).splitOn '\n' =
      [csvRow (headerFields toPrint percentiles),
        csvRow (seen (dataFields fmt stats toPrint percentiles)), [Char.ofNat 0]] := by
    have text : csvText fmt stats toPrint percentiles ++ [Char.ofNat 0] =
        ['\n'].intercalate [csvRow (headerFields toPrint percentiles),
          csvRow (seen (dataFields fmt stats toPrint percentiles)), [Char.ofNat 0]] := by
      simp [csvText, List.intercalate]
    rw [text]
    refine List.splitOn_intercalate '\n' ?_ (List.cons_ne_nil _ _)
    intro row member
    rcases List.mem_cons.mp member with rfl | member
    · exact newline_not_mem_csvRow fun f there => (names f there).2
    · rcases List.mem_cons.mp member with rfl | member
      · exact newline_not_mem_csvRow fun f there => (values f there).2
      · rw [List.mem_singleton.mp member]
        decide
  have nameFields : (csvRow (headerFields toPrint percentiles)).splitOn ',' =
      headerFields toPrint percentiles :=
    List.splitOn_intercalate ',' (fun f there => (names f there).1) (List.cons_ne_nil _ _)
  have valueFields : (csvRow (seen (dataFields fmt stats toPrint percentiles))).splitOn ',' =
      seen (dataFields fmt stats toPrint percentiles) :=
    List.splitOn_intercalate ',' (fun f there => (values f there).1)
      (seen_ne_nil (List.cons_ne_nil _ _))
  constructor
  · rintro ⟨header, data, text, same⟩
    rw [rows] at text
    obtain ⟨rfl, later⟩ := List.cons.inj text
    obtain ⟨rfl, -⟩ := List.cons.inj later
    rwa [nameFields, valueFields] at same
  · intro same
    refine ⟨_, _, rows, ?_⟩
    rwa [nameFields, valueFields]

/-- Without percentiles the description is alone in its row. -/
theorem dataFields_tail_eq_nil {toPrint : UInt32} {percentiles : List UInt32} :
    (dataFields fmt stats toPrint percentiles).tail = [] <->
      STATS_P_percentiles &&& toPrint = 0 ∨ percentiles = [] := by
  rw [dataFields, List.tail_cons]
  split <;> rename_i asked
  · rw [List.map_eq_nil_iff]
    exact ⟨Or.inr, fun either => either.resolve_left asked⟩
  · exact ⟨fun _ => Or.inl (not_not.mp asked), fun _ => rfl⟩

/-- The second row has as many fields only if nothing is missing in it. -/
theorem fields_of_length_eq {toPrint : UInt32} {percentiles : List UInt32}
    (lengths : (headerFields toPrint percentiles).length =
      (seen (dataFields fmt stats toPrint percentiles)).length) :
    (forall field : StatsField, field.mask &&& toPrint = 0) ∧
      (stats.desc ≠ [] ∨ STATS_P_percentiles &&& toPrint = 0 ∨ percentiles = []) := by
  have names : (headerFields toPrint percentiles).length =
      (StatsField.all.filter fun field => field.mask &&& toPrint ≠ 0).length +
        (dataFields fmt stats toPrint percentiles).tail.length + 1 := by
    rw [headerFields, dataFields, List.length_cons, List.length_append, List.length_map,
      List.tail_cons]
    split <;> simp
  have values : (seen (dataFields fmt stats toPrint percentiles)).length = _ :=
    seen_length stats.desc (dataFields fmt stats toPrint percentiles).tail
  rw [names, values] at lengths
  split at lengths
  · omega
  · rename_i kept
    have noField := List.filter_eq_nil_iff.mp (List.length_eq_zero_iff.mp (by omega :
      (StatsField.all.filter fun field => field.mask &&& toPrint ≠ 0).length = 0))
    refine ⟨fun field => ?_, ?_⟩
    · have unset := noField field (by cases field <;> decide)
      simpa using unset
    · rw [← @dataFields_tail_eq_nil _ fmt stats]
      by_cases empty : stats.desc = []
      · exact Or.inr (not_not.mp fun some => kept ⟨empty, some⟩)
      · exact Or.inl empty

/-- A description that is to be seen is the first of the values. -/
theorem seen_dataFields {toPrint : UInt32} {percentiles : List UInt32}
    (kept : stats.desc ≠ [] ∨ STATS_P_percentiles &&& toPrint = 0 ∨ percentiles = []) :
    seen (dataFields fmt stats toPrint percentiles) = dataFields fmt stats toPrint percentiles := by
  rw [← @dataFields_tail_eq_nil _ fmt stats] at kept
  rcases kept with nonempty | alone
  · exact seen_of_ne_nil nonempty _
  · change seen (stats.desc :: (dataFields fmt stats toPrint percentiles).tail) =
      stats.desc :: (dataFields fmt stats toPrint percentiles).tail
    rw [alone]
    cases stats.desc <;> rfl

/-- The values are those of the names if none is missing. -/
theorem fields_aligned_iff {toPrint : UInt32} {percentiles : List UInt32}
    (supported : forall percentile, percentile ∈ percentiles -> percentile ∈ supportedPercentiles) :
    (headerFields toPrint percentiles).map (fun name => (statistics fmt stats).lookup name) =
        (seen (dataFields fmt stats toPrint percentiles)).map some <->
      (forall field : StatsField, field.mask &&& toPrint = 0) ∧
        (stats.desc ≠ [] ∨ STATS_P_percentiles &&& toPrint = 0 ∨ percentiles = []) := by
  constructor
  · intro same
    have lengths := congrArg List.length same
    rw [List.length_map, List.length_map] at lengths
    exact fields_of_length_eq lengths
  · rintro ⟨noField, kept⟩
    have unset : (StatsField.all.filter fun field => field.mask &&& toPrint ≠ 0) = [] :=
      List.filter_eq_nil_iff.mpr fun field _ => by simp [noField field]
    have description : (statistics fmt stats).lookup "desc".toList = some stats.desc :=
      statistics_lookup fmt stats List.mem_cons_self
    rw [seen_dataFields kept, headerFields, dataFields, unset, List.map_cons, List.map_cons,
      description, List.map_nil, List.nil_append]
    refine congrArg (some stats.desc :: ·) ?_
    split
    · rw [List.map_map, List.map_map]
      refine List.map_congr_left fun percentile there => ?_
      have listed : (percentileName percentile, percentileValue fmt stats percentile) ∈
          statistics fmt stats :=
        List.mem_append_right _ (List.mem_map.mpr ⟨percentile, supported percentile there, rfl⟩)
      exact statistics_lookup fmt stats listed
    · rfl

/-- What fits is printed, and lines up without the statistics from `min` to
`variance` and with a description that is to be seen. -/
theorem printsLinedUp_of_fits {buflen : Nat} {toPrint : UInt32} {percentiles : List UInt32}
    (some : stats.hasStats ≠ 0) (header : STATS_P_csv_hdr &&& toPrint ≠ 0)
    (both : STATS_P_csv_hdr_only &&& toPrint = 0)
    (supported : forall percentile, percentile ∈ percentiles -> percentile ∈ supportedPercentiles)
    (noComma : ',' ∉ stats.desc) (noNewline : '\n' ∉ stats.desc)
    (fits : csvBytes fmt stats toPrint percentiles < buflen) :
    PrintsLinedUp fmt stats buflen toPrint percentiles <->
      (forall field : StatsField, field.mask &&& toPrint = 0) ∧
        (stats.desc ≠ [] ∨ STATS_P_percentiles &&& toPrint = 0 ∨ percentiles = []) := by
  have printed := statsPrintsCsvArr_result fmt buflen stats some header both supported noComma noNewline
  rw [← @fields_aligned_iff _ fmt stats _ _ supported,
    ← linesUp_csvText_iff supported noComma noNewline, PrintsLinedUp]
  rcases result : statsPrintsCsvArr fmt buflen stats toPrint percentiles with b | b <;>
    rw [result] at printed
  · exact absurd fits (Nat.not_lt.mpr printed.2)
  · rw [← printed.1]
    exact and_iff_left printed.2.1

/-- The rows line up, or do not fit, unless a statistic from `min` to `variance` is
asked for or an empty description comes before a percentile. -/
theorem printsLinedUp_iff {buflen : Nat} {toPrint : UInt32} {percentiles : List UInt32}
    (some : stats.hasStats ≠ 0) (header : STATS_P_csv_hdr &&& toPrint ≠ 0)
    (both : STATS_P_csv_hdr_only &&& toPrint = 0)
    (supported : forall percentile, percentile ∈ percentiles -> percentile ∈ supportedPercentiles)
    (noComma : ',' ∉ stats.desc) (noNewline : '\n' ∉ stats.desc) :
    PrintsLinedUp fmt stats buflen toPrint percentiles <->
      buflen ≤ csvBytes fmt stats toPrint percentiles ∨
        (forall field : StatsField, field.mask &&& toPrint = 0) ∧
          (stats.desc ≠ [] ∨ STATS_P_percentiles &&& toPrint = 0 ∨ percentiles = []) := by
  by_cases fits : csvBytes fmt stats toPrint percentiles < buflen
  · rw [printsLinedUp_of_fits some header both supported noComma noNewline fits,
      or_iff_right (Nat.not_le.mpr fits)]
  · have printed :=
      statsPrintsCsvArr_result fmt buflen stats some header both supported noComma noNewline
    refine iff_of_true ?_ (Or.inl (Nat.not_lt.mp fits))
    rw [PrintsLinedUp]
    rcases result : statsPrintsCsvArr fmt buflen stats toPrint percentiles with b | b <;>
      rw [result] at printed
    · exact ⟨printed.2, printed.1⟩
    · exact absurd printed.2.2 fits

end aligned

/-! ## A run whose values are all one -/

/-- `%E` of one. -/
def onesFormat : ExponentFormat Unit where
  format _ := "1.000000E+00".toList
  nonempty _ := by decide
  noComma _ := by decide
  noNewline _ := by decide

def ones : StatsResult Unit :=
  { desc := "run".toList, hasStats := 1, field := fun _ => (), percentiles := fun _ => () }

theorem printsLinedUp_median :
    PrintsLinedUp onesFormat ones 64 (STATS_P_csv_hdr ||| STATS_P_percentiles) [50] :=
  (printsLinedUp_iff (by decide) (by decide) (by decide)
    (fun _ asked => List.mem_singleton.mp asked ▸ by decide) (by decide) (by decide)).mpr
    (Or.inr ⟨fun field => by cases field <;> decide, Or.inl (by decide)⟩)

/-- The header has `min` in it, and the row of values only the description. -/
theorem minimum_not_linedUp :
    ones.hasStats ≠ 0 ∧ ',' ∉ ones.desc ∧ '\n' ∉ ones.desc ∧
      STATS_P_csv_hdr &&& (STATS_P_csv_hdr ||| StatsField.min.mask) ≠ 0 ∧
      STATS_P_csv_hdr_only &&& (STATS_P_csv_hdr ||| StatsField.min.mask) = 0 ∧
      ¬PrintsLinedUp onesFormat ones 64 (STATS_P_csv_hdr ||| StatsField.min.mask) [] := by
  refine ⟨by decide, by decide, by decide, by decide, by decide, fun aligned => ?_⟩
  have unset := (printsLinedUp_of_fits (by decide) (by decide) (by decide)
    (fun _ none => absurd none List.not_mem_nil) (by decide) (by decide) (by decide)).mp aligned
  exact absurd (unset.1 .min) (by decide)

end Lib
end Autolock
