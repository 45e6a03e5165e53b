import Autolock.Data.ByteMemory
import Autolock.Data.Loop
import Autolock.Util.Strtol
import Mathlib.Logic.Function.Basic

namespace Autolock
namespace Util

open Data
open Data.ByteMemory (littleEndian)

/-!
# The argument parser

`parseArguments` with `checkArgParser` before it and `assignArg` in its loops.
What is printed is left out, warnings included, and so are the functions that a
program may register for the end of the parse.  But the names of a descriptor are
joined for a print, whether it is made or not, and that may end the program.

The fields of a descriptor that never change are its `ArgOption`; its `required`
is kept in a store, under the index of its parser and its own index in the table.
The variables are bytes of a memory, which descriptors may share.  Every access to
`argv` or to a table checks its index.
-/

/-! ## Descriptors -/

inductive ArgType where
  | integer
  | character
  | string
  | boolean
  | float
  | rest
  | help
  | increment
  | set
  | toggle
  | endOptions
  deriving DecidableEq, Repr

inductive ArgKind where
  | kindOption
  | kindHelp
  | kindPositional
  | kindRest
  | kindEnd
  deriving DecidableEq, Repr

/-- The constants of the two enumerations, which the code compares with each other. -/
def ArgType.value : ArgType -> Nat
  | .integer => 1
  | .character => 2
  | .string => 3
  | .boolean => 4
  | .float => 5
  | .rest => 6
  | .help => 7
  | .increment => 8
  | .set => 9
  | .toggle => 10
  | .endOptions => 11

def ArgKind.value : ArgKind -> Nat
  | .kindOption => 0
  | .kindHelp => 1
  | .kindPositional => 2
  | .kindRest => 3
  | .kindEnd => 4

/-- The array of names has room for four; behind fewer of them there is a null
pointer.  `dest` is the address of a variable of `destSz` bytes. -/
structure ArgOption where
  kind : ArgKind
  type : ArgType
  argsBegin : List CString
  dest : Nat
  destSz : Nat
  isUnsigned : Bool
  four : argsBegin.length ≤ 4
  deriving DecidableEq, Repr

/-- A table, and the entry that ends it. -/
structure ArgDefs where
  args : List ArgOption
  last : ArgOption
  args_kind : forall desc, desc ∈ args -> desc.kind ≠ .kindEnd
  last_kind : last.kind = .kindEnd

structure ArgParserNode where
  main : Bool
  parser : ArgDefs

structure ArgParser where
  parsers : List ArgParserNode

/-- How a parse can end, other than by its return. -/
inductive Stop where
  | argdie
  | die
  | exit
  | outOfBounds
  deriving DecidableEq, Repr

/-- The entry of a table at an index. -/
def ArgDefs.desc (defs : ArgDefs) (k : Int) : Except Stop ArgOption :=
  if 0 ≤ k ∧ k ≤ defs.args.length then .ok (defs.args.getD k.toNat defs.last)
  else .error .outOfBounds

/-- `argv[i]`, after the name of the program has been skipped. -/
def argAt (argv : List CString) (i : Int) : Except Stop (Option CString) :=
  if 0 ≤ i + 1 ∧ i + 1 ≤ argv.length then .ok argv[(i + 1).toNat]? else .error .outOfBounds

instance decidableMemNames (arg : CString) (names : List CString) : Decidable (arg ∈ names) :=
  List.instDecidableMemOfLawfulBEq arg names

/-- `user_args_match`, whose loop goes on until a null pointer. -/
def userArgsMatch (desc : ArgOption) (arg : CString) : Except Stop Bool :=
  if arg ∈ desc.argsBegin then .ok true
  else if desc.argsBegin.length < 4 then .ok false
  else .error .outOfBounds

/-- The loop of `concat_args` with its offset in the buffer of 128 bytes. -/
def concatArgsFrom (offset : Nat) : List CString -> Except Stop Nat
  | [] => .ok offset
  | name :: names =>
      if offset + name.length < 128 then concatArgsFrom (offset + name.length + 1) names
      else .error .die

/-- `concat_args`, but for the text that it makes.  Its loop, too, goes on until a null pointer. -/
def concatArgs (desc : ArgOption) : Except Stop Unit := do
  let _ <- concatArgsFrom 0 desc.argsBegin
  if desc.argsBegin.length < 4 then .ok () else .error .outOfBounds

/-- The names fit the buffer in which they are joined. -/
def ArgOption.Fits (desc : ArgOption) : Prop :=
  (desc.argsBegin.map fun name => name.length + 1).sum ≤ 128

instance (desc : ArgOption) : Decidable desc.Fits :=
  inferInstanceAs (Decidable (_ ≤ 128))

/-- The names can be joined: they fit, and a null pointer follows them. -/
def ArgOption.Printable (desc : ArgOption) : Prop :=
  desc.Fits ∧ desc.argsBegin.length < 4

instance (desc : ArgOption) : Decidable desc.Printable :=
  inferInstanceAs (Decidable (_ ∧ _))

/-- The names fit, but nothing ends them. -/
def ArgOption.Unended (desc : ArgOption) : Prop :=
  desc.Fits ∧ desc.argsBegin.length = 4

/-- How the program ends at names that cannot be joined. -/
def ArgOption.unprinted (desc : ArgOption) : Stop :=
  if desc.Fits then .outOfBounds else .die

theorem ArgOption.Unended.not_printable {desc : ArgOption} (unended : desc.Unended) :
    ¬desc.Printable :=
  fun printable => Nat.ne_of_lt printable.2 unended.2

theorem ArgOption.Unended.unprinted_eq {desc : ArgOption} (unended : desc.Unended) :
    desc.unprinted = .outOfBounds :=
  if_pos unended.1

theorem ArgOption.unprinted_eq {desc : ArgOption} (long : ¬desc.Printable)
    (ended : ¬desc.Unended) : desc.unprinted = .die := by
  refine if_neg fun fits => ?_
  have room := desc.four
  by_cases four : desc.argsBegin.length = 4
  · exact ended ⟨fits, four⟩
  · exact long ⟨fits, by omega⟩

theorem ArgOption.unprinted_ne_argdie (desc : ArgOption) : desc.unprinted ≠ .argdie := by
  unfold ArgOption.unprinted
  split <;> decide

theorem concatArgsFrom_eq {offset : Nat} (inside : offset ≤ 128) (names : List CString) :
    concatArgsFrom offset names =
      if offset + (names.map fun name => name.length + 1).sum ≤ 128 then
        .ok (offset + (names.map fun name => name.length + 1).sum)
      else .error .die := by
  induction names generalizing offset with
  | nil => exact (if_pos inside).symm
  | cons name names inductionHypothesis =>
      rw [concatArgsFrom, List.map_cons, List.sum_cons]
      split
      · rw [inductionHypothesis (by omega), Nat.add_assoc, Nat.add_assoc, ← Nat.add_assoc name.length]
      · rw [if_neg (by omega)]

theorem concatArgs_eq (desc : ArgOption) :
    concatArgs desc = if desc.Printable then .ok () else .error desc.unprinted := by
  have joins := concatArgsFrom_eq (Nat.zero_le 128) desc.argsBegin
  rw [Nat.zero_add] at joins
  by_cases fits : desc.Fits
  · have joined := joins.trans (if_pos fits)
    by_cases ends : desc.argsBegin.length < 4
    · have printable : desc.Printable := ⟨fits, ends⟩
      simp only [concatArgs, joined, bind, Except.bind, if_pos ends, if_pos printable]
    · have long : ¬desc.Printable := fun printable => ends printable.2
      simp only [concatArgs, joined, bind, Except.bind, if_neg ends, if_neg long,
        ArgOption.unprinted, if_pos fits]
  · have joined := joins.trans (if_neg fits)
    have long : ¬desc.Printable := fun printable => fits printable.1
    simp only [concatArgs, joined, bind, Except.bind, if_neg long, ArgOption.unprinted, if_neg fits]

/-- `arg2str`, but for the text that it makes. -/
def arg2str (desc : ArgOption) : Except Stop Unit :=
  match desc.type with
  | .rest => if desc.kind = .kindRest then .ok () else .error .die
  | .endOptions => .error .die
  | _ => concatArgs desc

/-! ## The store -/

abbrev DescId := Nat × Nat

instance decidableMemIds (id : DescId) (ids : List DescId) : Decidable (id ∈ ids) :=
  List.instDecidableMemOfLawfulBEq id ids

structure Store where
  required : DescId -> BitVec 32
  mem : ByteMemory

namespace Store

/-- `required |= required << 1` -/
def mark (store : Store) (id : DescId) : Store :=
  { store with
    required := Function.update store.required id
      (store.required id ||| store.required id <<< 1) }

def assign (store : Store) (mem : ByteMemory) : Store :=
  { store with mem := mem }

end Store

/-! ## `assignArg` -/

/-- `strtod` and the bits of its results, as a `double` and as a `float`, and where the last words
of `argv` lie: the pointer to the first of them and the address of this pointer. -/
structure ArgLib (Double : Type) where
  strtod : CString -> Double × CString
  doubleBits : Double -> BitVec 64
  floatBits : Double -> BitVec 32
  word : List CString -> BitVec 64
  words : List CString -> BitVec 64

/-- An `arg_rest_t`. -/
def ArgLib.restBytes {Double : Type} (lib : ArgLib Double) (words : List CString) : List UInt8 :=
  littleEndian 8 (lib.words words).toNat ++ littleEndian 8 words.length

def BAD_STRING : Int := -1
def BAD_REST : Int := -2
def BAD_FLOAT : Int := -3
def BAD_INT : Int := -4

/-- What becomes of the word of a number. -/
inductive Conversion where
  | unparseable
  | badSize
  | stored (n : Nat) (overflow : Bool)
  deriving DecidableEq, Repr

/-- `I_CHECK_OVERFLOW_ERROR` for the types with `bits` bits. -/
def checkOverflowError (bits : Nat) (isUnsigned isNegative : Bool) (userV : BitVec 64) : Bool :=
  if (isNegative || !isUnsigned) && (userV.setWidth bits).signExtend 64 != userV then true
  else !isNegative && isUnsigned && (userV.setWidth bits).setWidth 64 != userV

/-- The switch on the size of the destination of an `Integer`. -/
def storeInteger (desc : ArgOption) (isNegative : Bool) (userV : BitVec 64) : Conversion :=
  match desc.destSz with
  | 8 => .stored userV.toNat false
  | 4 => .stored (userV.setWidth 32).toNat
      (checkOverflowError 32 desc.isUnsigned isNegative userV)
  | 2 => .stored (userV.setWidth 16).toNat
      (checkOverflowError 16 desc.isUnsigned isNegative userV)
  | 1 => .stored (userV.setWidth 8).toNat
      (checkOverflowError 8 desc.isUnsigned isNegative userV)
  | _ => .badSize

/-- The base of a word, and whether it begins with a sign. -/
def integerForm (word : CString) : Nat × Bool :=
  if word[0]? = some '0' ∧ word[1]? = some 'x' then (16, false)
  else if word[0]? = some '-' then (10, true)
  else (10, false)

/-- The case `Integer`. -/
def convertInteger (desc : ArgOption) (word : CString) : Conversion :=
  let form := integerForm word
  let converted : BitVec 64 × CString :=
    if desc.isUnsigned then ((strtoull word form.1).1.toBitVec, (strtoull word form.1).2)
    else (BitVec.ofInt 64 (strtoll word form.1).1, (strtoll word form.1).2)
  if converted.2 = word then .unparseable else storeInteger desc form.2 converted.1

section parse

variable {Double : Type} (lib : ArgLib Double)

/-- The switch of `assignArg` on the type. -/
def assignValue (desc : ArgOption) (mem : ByteMemory) (argv : List CString) (i offset : Int) :
    Except Stop (Int × ByteMemory) :=
  match desc.type with
  | .increment =>
      .ok (0, mem.write desc.dest
        (littleEndian desc.destSz ((mem.readNat desc.dest desc.destSz + 1) % 2 ^ 64)))
  | .string => do
      match <- argAt argv (i + offset) with
      | none => .ok (BAD_STRING, mem)
      | some _ =>
          .ok (1, mem.write desc.dest
            (littleEndian 8 (lib.word (argv.drop (i + offset + 1).toNat)).toNat))
  | .rest => do
      match <- argAt argv (i + offset) with
      | none => .ok (BAD_REST, mem)
      | some _ =>
          if desc.kind = .kindRest then
            .ok (1, mem.write desc.dest (lib.restBytes (argv.drop (i + offset + 1).toNat)))
          else .error .die
  | .set => .ok (0, (mem.write desc.dest (List.replicate desc.destSz 0)).write desc.dest [1])
  | .toggle =>
      .ok (0, mem.write desc.dest
        (littleEndian desc.destSz (if mem.readNat desc.dest desc.destSz = 0 then 1 else 0)))
  | .float => do
      match <- argAt argv (i + offset) with
      | none => .ok (BAD_FLOAT, mem)
      | some word =>
          if (lib.strtod word).2 = word then .ok (1, mem)
          else if desc.destSz = 8 then
            .ok (1, mem.write desc.dest
              (littleEndian 8 (lib.doubleBits (lib.strtod word).1).toNat))
          else if desc.destSz = 4 then
            .ok (1, mem.write desc.dest (littleEndian 4 (lib.floatBits (lib.strtod word).1).toNat))
          else .ok (BAD_FLOAT, mem)
  | .integer => do
      match <- argAt argv (i + offset) with
      | none => .ok (BAD_INT, mem)
      | some word =>
          match convertInteger desc word with
          | .unparseable => .ok (1, mem)
          | .badSize => .ok (BAD_INT, mem)
          | .stored n _ => .ok (1, mem.write desc.dest (littleEndian desc.destSz n))
  | .help => .error .exit
  | .character | .boolean | .endOptions => .error .die

/-- The number of words consumed, or an error code, and the memory afterwards. -/
def assignArg (desc : ArgOption) (mem : ByteMemory) (argv : List CString) (i offset : Int) :
    Except Stop (Int × ByteMemory) := do
  let _ <- concatArgs desc
  assignValue lib desc mem argv i offset

theorem assignArg_eq (desc : ArgOption) (mem : ByteMemory) (argv : List CString)
    (i offset : Int) :
    assignArg lib desc mem argv i offset =
      if desc.Printable then assignValue lib desc mem argv i offset
      else .error desc.unprinted := by
  rw [assignArg, concatArgs_eq]
  split <;> rfl

end parse

/-! ## `checkArgParser` -/

/-- The loop of `checkArgDef`, which answers whether there is a help option.  A
kind beyond `KindEnd` has no representation here. -/
def checkArgDefFrom (main : Bool) : ArgKind -> List ArgOption -> Except Stop Bool
  | _, [] => .ok false
  | state, desc :: rest =>
      if desc.kind ≠ state ∧ state = .kindOption ∧ desc.kind = .kindHelp then do
        let _ <- checkArgDefFrom main state rest
        .ok true
      else if desc.kind.value < state.value then .error .argdie
      else if (desc.kind = .kindPositional ∨ desc.kind = .kindRest) ∧ main = false then
        .error .argdie
      else checkArgDefFrom main desc.kind rest

def checkArgDef (main : Bool) (defs : ArgDefs) : Except Stop Bool :=
  checkArgDefFrom main .kindOption defs.args

def checkNodes : List ArgParserNode -> Except Stop Bool
  | [] => .ok false
  | node :: nodes => do
      let hashelp <- checkArgDef node.main node.parser
      let rest <- checkNodes nodes
      .ok (hashelp || rest)

def checkArgParser (ap : ArgParser) : Except Stop Unit := do
  let hashelp <- checkNodes ap.parsers
  if hashelp then .ok () else .error .argdie

/-! ## `parseArguments` -/

namespace ArgParser

/-- All descriptors in the order in which they are searched. -/
def entries (ap : ArgParser) : List (DescId × ArgOption) :=
  ap.parsers.zipIdx.flatMap fun (node, n) =>
    node.parser.args.zipIdx.map fun (desc, j) => ((n, j), desc)

/-- The first of the descriptors with the name. -/
def findFrom (arg : CString) :
    List (DescId × ArgOption) -> Except Stop (Option (DescId × ArgOption))
  | [] => .ok none
  | entry :: later => do
      if <- userArgsMatch entry.2 arg then .ok (some entry) else findFrom arg later

def find (ap : ArgParser) (arg : CString) : Except Stop (Option (DescId × ArgOption)) :=
  findFrom arg ap.entries

/-- The first main parser, with its index. -/
def mainParser (ap : ArgParser) : Option (Nat × ArgDefs) :=
  (ap.parsers.zipIdx.find? fun (node, _) => node.main).map fun (node, n) => (n, node.parser)

end ArgParser

/-- `baseDestOffset` -/
def ArgDefs.baseDestOffset (defs : ArgDefs) : Nat :=
  defs.args.findIdx fun desc => desc.kind = .kindPositional ∨ desc.kind = .kindRest

/-- The entry at which the positional arguments start, which may be the last one. -/
def ArgDefs.start (defs : ArgDefs) : ArgOption :=
  defs.args.getD defs.baseDestOffset defs.last

theorem desc_start (defs : ArgDefs) : defs.desc defs.baseDestOffset = .ok defs.start := by
  have inside : defs.baseDestOffset ≤ defs.args.length := List.findIdx_le_length
  rw [ArgDefs.desc, if_pos (by omega), Int.toNat_natCast]
  rfl

/-- The first loop: every `required` of a descriptor is 0 or 1. -/
def Store.normalise (ap : ArgParser) (store : Store) : Store :=
  { store with
    required := fun id =>
      if (exists entry, entry ∈ ap.entries ∧ entry.1 = id) ∧ store.required id ≠ 0 then 1
      else store.required id }

/-- Where the parse is: in the loop for the options, behind it, or in the loop for
the positional arguments. -/
inductive ParseState where
  | options (i : Nat) (store : Store)
  | start (baseArg : Nat) (store : Store)
  | positional (baseArg : Nat) (j : Int) (store : Store)

section parse

variable {Double : Type} (lib : ArgLib Double) (ap : ArgParser) (argv : List CString)

/-- An option at the index `i`. -/
def processOption (i : Nat) (arg : CString) (store : Store) :
    Except Stop ParseState := do
  match <- ap.find arg with
  | none => .error .argdie
  | some (id, desc) =>
      if desc.type = .endOptions then .ok (.start (i + 1) store)
      else
        let (consumed, mem) <- assignArg lib desc store.mem argv i 1
        if consumed < 0 then .error .argdie
        else .ok (.options (i + consumed.toNat + 1) ((store.assign mem).mark id))

/-- Behind the options the names of the first positional descriptor are joined. -/
def startPositional (baseArg : Nat) (store : Store) : Except Stop ParseState :=
  match ap.mainParser with
  | none => .error .die
  | some (_, defs) => do
      let desc <- defs.desc defs.baseDestOffset
      let _ <- concatArgs desc
      .ok (.positional baseArg 0 store)

/-- A positional argument: the mark is for the descriptor after those consumed. -/
def processPositional (n : Nat) (defs : ArgDefs) (desc : ArgOption) (baseArg : Nat) (j : Int)
    (store : Store) : Except Stop ParseState := do
  let (consumed, mem) <- assignArg lib desc store.mem argv (baseArg + j) 0
  let _ <- defs.desc (defs.baseDestOffset + (j + consumed))
  .ok (.positional baseArg (j + consumed)
    ((store.assign mem).mark (n, (defs.baseDestOffset + (j + consumed)).toNat)))

/-- The last check: nothing that is required has been left out.  The message names
the first descriptor that has. -/
def checkRequired (store : Store) : Except Stop Store :=
  match ap.entries.find? fun entry => store.required entry.1 = 1 with
  | none => .ok store
  | some (_, desc) => do
      let _ <- arg2str desc
      .error .argdie

/-- What follows the positional arguments; two types are compared with kinds. -/
def finish (n : Nat) (defs : ArgDefs) (desc : ArgOption) (baseArg : Nat) (j : Int)
    (store : Store) : Except Stop Store :=
  if desc.type.value = ArgKind.kindPositional.value then .error .argdie
  else if desc.type.value = ArgKind.kindEnd.value ∧ baseArg + j + 1 < argv.length then
    .error .argdie
  else if desc.type = .rest ∧ baseArg + j + 1 < argv.length then do
    let (consumed, mem) <- assignArg lib desc store.mem argv (baseArg + j) 0
    let _ <- defs.desc (defs.baseDestOffset + (j + consumed))
    checkRequired ap
      ((store.assign mem).mark (n, (defs.baseDestOffset + (j + consumed)).toNat))
  else checkRequired ap store

/-- A pass goes on unless an error ends the program. -/
def continueWith : Except Stop ParseState ->
    Pass ParseState (Except Stop Store)
  | .ok state => .again state
  | .error stop => .done (.error stop)

/-- One pass of the loop that the parse is in, or the way from one to the other. -/
def parsePass : ParseState -> Pass ParseState (Except Stop Store)
  | .options i store =>
      match argv[i + 1]? with
      | none => .again (.start i store)
      | some arg =>
          if arg.head? = some '-' then continueWith (processOption lib ap argv i arg store)
          else .again (.start i store)
  | .start baseArg store => continueWith (startPositional ap baseArg store)
  | .positional baseArg j store =>
      match ap.mainParser with
      | none => .done (.error .die)
      | some (n, defs) =>
          match defs.desc (defs.baseDestOffset + j) with
          | .error stop => .done (.error stop)
          | .ok desc =>
              if desc.kind = .kindPositional ∧ baseArg + j + 1 < argv.length then
                continueWith (processPositional lib argv n defs desc baseArg j store)
              else .done (finish lib ap argv n defs desc baseArg j store)

/-- `parseArguments` has ended with a stop or, with the store as it is then, returned 0. -/
def ParseArguments (store : Store) (result : Except Stop Store) : Prop :=
  match checkArgParser ap with
  | .error stop => result = .error stop
  | .ok () => Returns (parsePass lib ap argv) (.options 0 (store.normalise ap)) result

end parse

end Util
end Autolock
