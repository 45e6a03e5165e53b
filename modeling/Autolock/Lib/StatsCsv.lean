import Autolock.Util.Strtol
import Mathlib.Data.UInt

namespace Autolock
namespace Lib

open Util

/-!
# The statistics of a benchmark as CSV

`stats_prints_csv_arr` goes over the statistics twice, for the names and for the
values.  A comma separates what is printed from what is there already, unless a
row begins.

The braces of `STATS_CHECK_PRINT` are misplaced: what should print the value of
a statistic in the second pass is inside the condition for the first.
-/

/-- A bit of `to_print`. -/
def maskBit (k : UInt32) : UInt32 :=
  1 <<< k

/-- The statistics with a bit and a getter of their own. -/
inductive StatsField where
  | min
  | max
  | median
  | mean
  | geomean
  | stdev
  | variance
  deriving DecidableEq, Repr

namespace StatsField

def all : List StatsField :=
  [.min, .max, .median, .mean, .geomean, .stdev, .variance]

/-- `V_TO_STR(field)` -/
def name : StatsField -> CString
  | .min => "min".toList
  | .max => "max".toList
  | .median => "median".toList
  | .mean => "mean".toList
  | .geomean => "geomean".toList
  | .stdev => "stdev".toList
  | .variance => "variance".toList

def mask : StatsField -> UInt32
  | .min => maskBit 1
  | .max => maskBit 2
  | .median => maskBit 3
  | .mean => maskBit 4
  | .geomean => maskBit 5
  | .stdev => maskBit 6
  | .variance => maskBit 7

end StatsField

def STATS_P_percentiles : UInt32 := maskBit 8
def STATS_P_csv_hdr : UInt32 := maskBit 9
def STATS_P_csv_hdr_only : UInt32 := maskBit 10
def STATS_P_all : UInt32 := (0 - 1) ^^^ (STATS_P_csv_hdr ||| STATS_P_csv_hdr_only)

/-- `I_percentiles` -/
def supportedPercentiles : List UInt32 :=
  [0, 1, 5, 10, 25, 33, 50, 66, 75, 90, 95, 99, 100]

structure StatsResult (Double : Type) where
  desc : CString
  hasStats : UInt64
  field : StatsField -> Double
  percentiles : Nat -> Double

/-- `%E` prints something, and neither a comma nor a newline. -/
structure ExponentFormat (Double : Type) where
  format : Double -> CString
  nonempty : forall x, format x ≠ []
  noComma : forall x, ',' ∉ format x
  noNewline : forall x, '\n' ∉ format x

/-- `I_stats_get_percentile_idx`, from an index on. -/
def percentileIdxFrom (percentile : UInt32) : Nat -> List UInt32 -> Nat
  | i, [] => i
  | i, v :: rest =>
      if percentile < v then supportedPercentiles.length
      else if percentile = v then i
      else percentileIdxFrom percentile (i + 1) rest

def percentileIdx (percentile : UInt32) : Nat :=
  percentileIdxFrom percentile 0 supportedPercentiles

/-- `stats_get_percentile`, unless it dies. -/
def statsGetPercentile {Double : Type} (stats : StatsResult Double) (percentile : UInt32) :
    Option Double :=
  if percentileIdx percentile < supportedPercentiles.length then
    some (stats.percentiles (percentileIdx percentile))
  else none

/-- The bytes that have been printed, and the end of those that have been written. -/
structure CsvBuffer where
  text : CString
  top : Nat
  deriving DecidableEq, Repr

/-- A function that prints gives the buffer as it leaves it or in which the program dies. -/
abbrev Prints := CsvBuffer -> Except CsvBuffer CsvBuffer

/-- What is printed after what is there already. -/
def glue (text s : CString) : CString :=
  text ++ (if text ≠ [] ∧ text.getLast? ≠ some '\n' then ',' :: s else s)

/-- `STATS_DO_PRINT`: as much as fits is written, with a terminating zero. -/
def doPrint (buflen : Nat) (s : CString) : Prints := fun b =>
  let text := glue b.text s
  let size := buflen - b.text.length
  let top := if size = 0 then b.top
    else max b.top (b.text.length + min (text.length - b.text.length) (size - 1) + 1)
  if text.length < buflen then .ok ⟨text, top⟩ else .error ⟨text, top⟩

/-- `buf[nbytes_req++] = c` after its assertion. -/
def putChar (buflen : Nat) (c : Char) : Prints := fun b =>
  if b.text.length < buflen then .ok ⟨b.text ++ [c], max b.top (b.text.length + 1)⟩ else .error b

section csv

variable {Double : Type} (fmt : ExponentFormat Double) (buflen : Nat)
  (stats : StatsResult Double) (toPrint : UInt32) (percentiles : List UInt32)

/-- `STATS_CHECK_PRINT` -/
def checkPrint (i : Nat) (field : StatsField) : Prints := fun b =>
  if i = 0 ∧ STATS_P_csv_hdr &&& toPrint ≠ 0 then
    if field.mask &&& toPrint ≠ 0 then doPrint buflen field.name b
    else if i ≠ 0 then doPrint buflen (fmt.format (stats.field field)) b
    else .ok b
  else .ok b

def percentileName (percentile : UInt32) : CString :=
  "percentile(".toList ++ Nat.toDigits 10 percentile.toNat ++ [')']

def printPercentile (i : Nat) (percentile : UInt32) : Prints := fun b =>
  if i = 0 ∧ STATS_P_csv_hdr &&& toPrint ≠ 0 then doPrint buflen (percentileName percentile) b
  else if i ≠ 0 then
    match statsGetPercentile stats percentile with
    | none => .error b
    | some x => doPrint buflen (fmt.format x) b
  else .ok b

/-- One pass, without its newline. -/
def printRow (i : Nat) : Prints := fun b => do
  let b <- if i = 0 ∧ STATS_P_csv_hdr &&& toPrint ≠ 0 then doPrint buflen "desc".toList b
    else if i ≠ 0 then doPrint buflen stats.desc b
    else .ok b
  let b <- StatsField.all.foldlM (fun b field => checkPrint fmt buflen stats toPrint i field b) b
  if STATS_P_percentiles &&& toPrint ≠ 0 then
    percentiles.foldlM (fun b percentile => printPercentile fmt buflen stats toPrint i percentile b) b
  else .ok b

/-- The loop over the passes, of which some are left. -/
def printRows : Nat -> Nat -> Prints
  | 0, _ => fun b => .ok b
  | left + 1, i => fun b => do
      let b <- printRow fmt buflen stats toPrint percentiles i b
      if STATS_P_csv_hdr_only &&& toPrint ≠ 0 then .ok b
      else do
        let b <- putChar buflen '\n' b
        printRows left (i + 1) b

/-- `stats_prints_csv_arr` with a buffer of `buflen` bytes; it returns the number
of bytes in the text. -/
def statsPrintsCsvArr : Except CsvBuffer CsvBuffer :=
  if stats.hasStats = 0 then .ok ⟨[], 0⟩
  else
    let toPrint := if toPrint = 0 then STATS_P_all else toPrint
    do
      let b <- printRows fmt buflen stats toPrint percentiles 2 0 ⟨[], 0⟩
      putChar buflen (Char.ofNat 0) b

end csv

end Lib
end Autolock
