import Autolock.Util.Arg

namespace Autolock
namespace Util

open Data
open Data.ByteMemory (littleEndian write_of_lt write_of_le)

/-!
# The words that a parse reads

What `assignArg` does is determined by the type of the descriptor and by the
words that follow.  The options of a command line are read from its words alone;
the loop for the options does the same to `argv`, as long as the names that it
compares with end and those that it joins fit their buffer.
-/

/-! ## The names of descriptors -/

section names

/-- The first descriptor with a name. -/
def ArgParser.named (ap : ArgParser) (w : CString) : Option (DescId × ArgOption) :=
  ap.entries.find? fun entry => w ∈ entry.2.argsBegin

/-- Before any descriptor with the name there is one with four others, behind which
there is no null pointer. -/
def ArgParser.Overruns (ap : ArgParser) (w : CString) : Prop :=
  exists entry,
    ap.entries.find? (fun entry => w ∈ entry.2.argsBegin ∨ entry.2.argsBegin.length = 4) =
      some entry ∧ w ∉ entry.2.argsBegin

theorem findFrom_eq (w : CString) (entries : List (DescId × ArgOption)) :
    let overruns := exists entry,
      entries.find? (fun entry => w ∈ entry.2.argsBegin ∨ entry.2.argsBegin.length = 4) =
        some entry ∧ w ∉ entry.2.argsBegin
    (overruns -> ArgParser.findFrom w entries = .error .outOfBounds) ∧
      (¬overruns -> ArgParser.findFrom w entries =
        .ok (entries.find? fun entry => w ∈ entry.2.argsBegin)) := by
  induction entries with
  | nil => simp [ArgParser.findFrom]
  | cons entry later inductionHypothesis =>
      by_cases named : w ∈ entry.2.argsBegin
      · simp [ArgParser.findFrom, userArgsMatch, named, bind, Except.bind]
      · have room := entry.2.four
        by_cases four : entry.2.argsBegin.length = 4
        · simp [ArgParser.findFrom, userArgsMatch, named, four, bind, Except.bind]
        · have ends : entry.2.argsBegin.length < 4 := by omega
          simpa [ArgParser.findFrom, userArgsMatch, named, four, ends, bind, Except.bind]
            using inductionHypothesis

variable {ap : ArgParser} {w : CString}

theorem find_of_overruns (overruns : ap.Overruns w) : ap.find w = .error .outOfBounds :=
  (findFrom_eq w ap.entries).1 overruns

theorem find_of_not_overruns (ends : ¬ap.Overruns w) : ap.find w = .ok (ap.named w) :=
  (findFrom_eq w ap.entries).2 ends

end names

/-! ## The words for a descriptor -/

section words

variable {Double : Type} (lib : ArgLib Double)

/-- How many of the words that follow a descriptor takes, by its type: none, or one
that there must be.  A number for a destination of another size is an error as
well, and some types end the program. -/
def taken (desc : ArgOption) (next : Option CString) : Option Int :=
  match desc.type, next with
  | .increment, _ | .set, _ | .toggle, _ => some 0
  | .string, none => some BAD_STRING
  | .string, some _ => some 1
  | .rest, none => some BAD_REST
  | .rest, some _ => if desc.kind = .kindRest then some 1 else none
  | .float, none => some BAD_FLOAT
  | .float, some word =>
      if (lib.strtod word).2 = word ∨ desc.destSz = 8 ∨ desc.destSz = 4 then some 1
      else some BAD_FLOAT
  | .integer, none => some BAD_INT
  | .integer, some word => if convertInteger desc word = .badSize then some BAD_INT else some 1
  | .help, _ | .character, _ | .boolean, _ | .endOptions, _ => none

/-- What `assignArg` answers, unless it ends the program. -/
def assigned (desc : ArgOption) (next : Option CString) : Option Int :=
  if desc.Printable then taken lib desc next else none

/-- What is stored for a descriptor, by the words that follow it. -/
def storedBytes (desc : ArgOption) (words : List CString) (mem : ByteMemory) : List UInt8 :=
  match desc.type, words with
  | .increment, _ =>
      littleEndian desc.destSz ((mem.readNat desc.dest desc.destSz + 1) % 2 ^ 64)
  | .set, _ => 1 :: List.replicate (desc.destSz - 1) 0
  | .toggle, _ => littleEndian desc.destSz (if mem.readNat desc.dest desc.destSz = 0 then 1 else 0)
  | .string, _ :: _ => littleEndian 8 (lib.word words).toNat
  | .rest, _ => lib.restBytes words
  | .float, word :: _ =>
      if (lib.strtod word).2 = word then []
      else if desc.destSz = 8 then littleEndian 8 (lib.doubleBits (lib.strtod word).1).toNat
      else if desc.destSz = 4 then littleEndian 4 (lib.floatBits (lib.strtod word).1).toNat
      else []
  | .integer, word :: _ =>
      match convertInteger desc word with
      | .stored n _ => littleEndian desc.destSz n
      | _ => []
  | _, _ => []

/-- The memory after the words for a descriptor have been converted. -/
def converted (desc : ArgOption) (words : List CString) (mem : ByteMemory) : ByteMemory :=
  mem.write desc.dest (storedBytes lib desc words mem)

/-- An access to `argv` is to the words from there on. -/
theorem argAt_drop {argv : List CString} {i : Int} {k : Nat} (index : i + 1 = k)
    (inside : k ≤ argv.length) : argAt argv i = .ok (argv.drop k).head? := by
  have found : (i + 1).toNat = k := by omega
  rw [argAt, if_pos (by omega), found, List.head?_drop]

section assign

variable {lib} {desc : ArgOption}

theorem assigned_eq_some {next : Option CString} {code : Int} :
    assigned lib desc next = some code <-> desc.Printable ∧ taken lib desc next = some code := by
  unfold assigned
  split
  · next printable => exact (and_iff_right printable).symm
  · next long => exact iff_of_false (fun same => nomatch same) fun both => long both.1

/-- A descriptor takes no word, or takes the next one. -/
theorem taken_eq_nat {next : Option CString} {n : Nat} (takes : taken lib desc next = some (n : Int)) :
    n = 0 ∧ (desc.type = .increment ∨ desc.type = .set ∨ desc.type = .toggle) ∨
      n = 1 ∧ exists word, next = some word ∧
        (desc.type = .string ∨ desc.type = .rest ∧ desc.kind = .kindRest ∨
          desc.type = .float ∧
            ((lib.strtod word).2 = word ∨ desc.destSz = 8 ∨ desc.destSz = 4) ∨
          desc.type = .integer ∧ convertInteger desc word ≠ .badSize) := by
  have bad : forall c : Int, c < 0 -> some c ≠ some (n : Int) := by
    intro c negative same
    have := Option.some.inj same
    omega
  unfold taken at takes
  split at takes <;> rename_i type
  case h_1 | h_2 | h_3 =>
    refine Or.inl ⟨Int.ofNat.inj (Option.some.inj takes).symm, ?_⟩
    simp [type]
  case h_4 | h_6 | h_8 | h_10 => exact absurd takes (bad _ (by decide))
  case h_5 =>
    exact Or.inr ⟨Int.ofNat.inj (Option.some.inj takes).symm, _, rfl, Or.inl type⟩
  case h_7 =>
    split at takes
    · rename_i rest
      exact Or.inr ⟨Int.ofNat.inj (Option.some.inj takes).symm, _, rfl, Or.inr (Or.inl ⟨type, rest⟩)⟩
    · cases takes
  case h_9 =>
    split at takes
    · rename_i sized
      exact Or.inr ⟨Int.ofNat.inj (Option.some.inj takes).symm, _, rfl,
        Or.inr (Or.inr (Or.inl ⟨type, sized⟩))⟩
    · exact absurd takes (bad _ (by decide))
  case h_11 =>
    split at takes
    · exact absurd takes (bad _ (by decide))
    · rename_i sized
      exact Or.inr ⟨Int.ofNat.inj (Option.some.inj takes).symm, _, rfl,
        Or.inr (Or.inr (Or.inr ⟨type, sized⟩))⟩
  all_goals cases takes

/-- `memset` to 0 and then of the first byte to 1. -/
theorem write_set (mem : ByteMemory) (p size : Nat) :
    (mem.write p (List.replicate size 0)).write p [1] =
      mem.write p (1 :: List.replicate (size - 1) 0) := by
  funext a
  by_cases before : a < p
  · rw [write_of_lt before, write_of_lt before, write_of_lt before]
  · rcases Nat.exists_eq_add_of_le (Nat.not_lt.mp before) with ⟨i, rfl⟩
    cases i with
    | zero => simp [ByteMemory.write]
    | succ i =>
        rw [write_of_le (by simp)]
        cases size with
        | zero => simp [ByteMemory.write]
        | succ size => simp [ByteMemory.write, List.getElem?_replicate]

variable {argv : List CString} {i offset : Int} {k : Nat}
  (index : i + offset + 1 = k) (inside : k ≤ argv.length) (mem : ByteMemory)

include index inside

theorem assignValue_of_taken {n : Nat}
    (takes : taken lib desc (argv.drop k).head? = some (n : Int)) :
    assignValue lib desc mem argv i offset = .ok (n, converted lib desc (argv.drop k) mem) := by
  have access := argAt_drop index inside
  have drop : (i + offset + 1).toNat = k := by omega
  rcases taken_eq_nat takes with ⟨rfl, type | type | type⟩ | ⟨rfl, word, next, cases⟩
  · simp [assignValue, converted, storedBytes, type]
  · simp [assignValue, converted, storedBytes, type, write_set]
  · simp [assignValue, converted, storedBytes, type]
  · rw [next] at access
    rcases List.head?_eq_some_iff.mp next with ⟨words, all⟩
    rcases cases with type | ⟨type, rest⟩ | ⟨type, sized⟩ | ⟨type, sized⟩
    · simp [assignValue, converted, storedBytes, type, access, drop, all, bind, Except.bind]
    · simp [assignValue, converted, storedBytes, type, access, rest, drop, bind, Except.bind]
    · simp only [assignValue, converted, storedBytes, type, access, all, bind, Except.bind]
      by_cases unparseable : (lib.strtod word).2 = word
      · simp [unparseable]
      · by_cases double : desc.destSz = 8
        · simp [unparseable, double]
        · have single : desc.destSz = 4 := (sized.resolve_left unparseable).resolve_left double
          simp [unparseable, single]
    · simp only [assignValue, converted, storedBytes, type, access, all, bind, Except.bind]
      cases number : convertInteger desc word with
      | unparseable => simp
      | badSize => exact absurd number sized
      | stored value overflow => simp

/-- An error code is the answer, and nothing has been stored. -/
theorem assignValue_of_negative {code : Int} (negative : code < 0)
    (takes : taken lib desc (argv.drop k).head? = some code) :
    assignValue lib desc mem argv i offset = .ok (code, mem) := by
  have access := argAt_drop index inside
  have bad : forall n : Nat, some (n : Int) ≠ some code := by
    intro n same
    have := Option.some.inj same
    omega
  unfold taken at takes
  split at takes
  case h_1 | h_2 | h_3 => exact absurd takes (bad 0)
  case h_5 => exact absurd takes (bad 1)
  case h_4 type next | h_6 type next | h_8 type next | h_10 type next =>
    cases takes
    rw [next] at access
    simp [assignValue, type, access, bind, Except.bind]
  case h_7 =>
    split at takes
    · exact absurd takes (bad 1)
    · cases takes
  case h_9 type next =>
    split at takes
    · exact absurd takes (bad 1)
    · rename_i size
      rw [not_or, not_or] at size
      cases takes
      rw [next] at access
      simp [assignValue, type, access, size, bind, Except.bind]
  case h_11 type next =>
    split at takes
    · rename_i size
      cases takes
      rw [next] at access
      simp [assignValue, type, access, size, bind, Except.bind]
    · exact absurd takes (bad 1)
  all_goals cases takes

theorem assignValue_of_none (ends : taken lib desc (argv.drop k).head? = none) :
    exists stop, stop ≠ .outOfBounds ∧ assignValue lib desc mem argv i offset = .error stop := by
  have access := argAt_drop index inside
  unfold taken at ends
  split at ends
  case h_7 type next =>
    split at ends
    · cases ends
    · rename_i kind
      rw [next] at access
      refine ⟨.die, by decide, ?_⟩
      simp [assignValue, type, access, kind, bind, Except.bind]
  case h_9 => split at ends <;> cases ends
  case h_11 => split at ends <;> cases ends
  case h_12 type => exact ⟨.exit, by decide, by simp [assignValue, type]⟩
  case h_13 type | h_14 type | h_15 type => exact ⟨.die, by decide, by simp [assignValue, type]⟩
  all_goals cases ends

theorem assignArg_of_assigned {n : Nat}
    (takes : assigned lib desc (argv.drop k).head? = some (n : Int)) :
    assignArg lib desc mem argv i offset = .ok (n, converted lib desc (argv.drop k) mem) := by
  rw [assigned_eq_some] at takes
  rw [assignArg_eq, if_pos takes.1]
  exact assignValue_of_taken index inside mem takes.2

theorem assignArg_of_negative {code : Int} (negative : code < 0)
    (takes : assigned lib desc (argv.drop k).head? = some code) :
    assignArg lib desc mem argv i offset = .ok (code, mem) := by
  rw [assigned_eq_some] at takes
  rw [assignArg_eq, if_pos takes.1]
  exact assignValue_of_negative index inside mem negative takes.2

/-- The program ends, though not with an access out of bounds. -/
theorem assignArg_of_none (ends : assigned lib desc (argv.drop k).head? = none)
    (ended : ¬desc.Unended) :
    exists stop, stop ≠ .outOfBounds ∧ assignArg lib desc mem argv i offset = .error stop := by
  rw [assignArg_eq]
  unfold assigned at ends
  split
  · next printable =>
      rw [if_pos printable] at ends
      exact assignValue_of_none index inside mem ends
  · next long => exact ⟨.die, by decide, by rw [ArgOption.unprinted_eq long ended]⟩

end assign

end words

/-! ## The options of a command line -/

/-- A descriptor that is given, with the words from its own on, and the one that is marked then. -/
structure Given where
  id : DescId
  desc : ArgOption
  words : List CString
  marked : DescId

section options

variable {Double : Type} (lib : ArgLib Double) (ap : ArgParser)

def Store.take (store : Store) (given : Given) : Store :=
  (store.assign (converted lib given.desc given.words store.mem)).mark given.marked

/-- Known options, each with the words that its descriptor takes, in front of other words. -/
inductive OptionWords : List CString -> List Given -> List CString -> Prop
  | none (words : List CString) : OptionWords words [] words
  | next {w : CString} {words left : List CString} {given : List Given} {id : DescId}
      {desc : ArgOption} {n : Nat} (option : w.head? = some '-') (found : ap.named w = some (id, desc))
      (takes : taken lib desc words.head? = some (n : Int))
      (later : OptionWords (words.drop n) given left) :
      OptionWords (w :: words) (⟨id, desc, words, id⟩ :: given) left

/-- The options end before the first word that does not begin with a hyphen, or with
a word for their end. -/
inductive OptionsEnd : List CString -> List DescId -> List CString -> Prop
  | noOption {left : List CString} (other : forall w, left.head? = some w -> w.head? ≠ some '-') :
      OptionsEnd left [] left
  | endOptions {w : CString} {left : List CString} {id : DescId} {desc : ArgOption}
      (option : w.head? = some '-') (found : ap.named w = some (id, desc))
      (ends : desc.type = .endOptions) : OptionsEnd (w :: left) [id] left

/-- The options of a command line, with the descriptor for their end if there is a
word for it, and the words that are left. -/
def OptionPart (words : List CString) (given : List Given) (ended : List DescId)
    (left : List CString) : Prop :=
  exists rest, OptionWords lib ap words given rest ∧ OptionsEnd ap rest ended left

/-- A word that begins with a hyphen and is not the name of a descriptor, or not
followed by what that takes. -/
def OptionsFail (words : List CString) : Prop :=
  exists w rest, words = w :: rest ∧ w.head? = some '-' ∧ forall id desc,
    ap.named w = some (id, desc) -> desc.type ≠ .endOptions ∧
      forall n : Nat, taken lib desc rest.head? ≠ some (n : Int)

variable {lib ap} {words left left' rest rest' : List CString} {given given' : List Given}
  {ended ended' : List DescId}

theorem OptionsEnd.unique (first : OptionsEnd ap rest ended left)
    (second : OptionsEnd ap rest ended' left') : ended = ended' ∧ left = left' := by
  cases first with
  | noOption other =>
      cases second with
      | noOption => exact ⟨rfl, rfl⟩
      | endOptions option => exact absurd option (other _ rfl)
  | endOptions option found =>
      cases second with
      | noOption other => exact absurd option (other _ rfl)
      | endOptions _ found' =>
          cases found.symm.trans found'
          exact ⟨rfl, rfl⟩

/-- No option follows the end. -/
theorem OptionsEnd.not_option {w : CString} (ends : OptionsEnd ap (w :: words) ended left)
    (option : w.head? = some '-') {id : DescId} {desc : ArgOption}
    (found : ap.named w = some (id, desc)) (n : Nat) :
    taken lib desc words.head? ≠ some (n : Int) := by
  cases ends with
  | noOption other => exact absurd option (other _ rfl)
  | endOptions _ found' ends =>
      cases found.symm.trans found'
      intro takes
      simp only [taken, ends] at takes
      cases takes

/-- There is one way to read the options. -/
theorem OptionPart.unique (first : OptionPart lib ap words given ended left)
    (second : OptionPart lib ap words given' ended' left') :
    given = given' ∧ ended = ended' ∧ left = left' := by
  rcases first with ⟨rest, reads, ends⟩
  rcases second with ⟨rest', reads', ends'⟩
  induction reads generalizing given' with
  | none =>
      cases reads' with
      | none => exact ⟨rfl, ends.unique ends'⟩
      | next option found takes => exact absurd takes (ends.not_option option found _)
  | next option found takes later inductionHypothesis =>
      cases reads' with
      | none => exact absurd takes (ends'.not_option option found _)
      | next _ found' takes' later' =>
          cases found.symm.trans found'
          cases takes.symm.trans takes'
          rcases inductionHypothesis ends later' with ⟨same, others⟩
          exact ⟨congrArg _ same, others⟩

/-- The options are read up to their end, or to an error. -/
theorem optionWords_maximal (words : List CString) :
    exists given rest, OptionWords lib ap words given rest ∧
      ((exists ended left, OptionsEnd ap rest ended left) ∨ OptionsFail lib ap rest) := by
  induction size : words.length using Nat.strongRecOn generalizing words with
  | ind size' inductionHypothesis =>
      subst size
      by_cases stuck : (exists ended left, OptionsEnd ap words ended left) ∨ OptionsFail lib ap words
      · exact ⟨[], words, .none words, stuck⟩
      · rw [not_or] at stuck
        rcases words with _ | ⟨w, words⟩
        · exact absurd ⟨[], [], .noOption fun w impossible => nomatch impossible⟩ stuck.1
        · have option : w.head? = some '-' := by
            by_contra other
            refine stuck.1 ⟨[], w :: words, .noOption fun w' same => ?_⟩
            cases same
            exact other
          by_contra none
          refine stuck.2 ⟨w, words, rfl, option, fun id desc found => ⟨fun ends => ?_, fun n takes => ?_⟩⟩
          · exact stuck.1 ⟨[id], words, .endOptions option found ends⟩
          · rcases inductionHypothesis (words.drop n).length
              (by rw [List.length_drop, List.length_cons]; omega) (words.drop n) rfl with
              ⟨given, rest, later, stuck⟩
            exact none ⟨_, rest, .next option found takes later, stuck⟩

/-- What fails is not read to an end. -/
theorem OptionWords.not_part (reads : OptionWords lib ap words given rest)
    (fails : OptionsFail lib ap rest) : ¬OptionPart lib ap words given' ended left := by
  rintro ⟨rest', reads', ends⟩
  induction reads generalizing given' with
  | none =>
      rcases fails with ⟨w, later, rfl, option, stuck⟩
      cases reads' with
      | none =>
          cases ends with
          | noOption other => exact other w rfl option
          | endOptions _ found ends => exact (stuck _ _ found).1 ends
      | next _ found takes => exact (stuck _ _ found).2 _ takes
  | next option found takes later inductionHypothesis =>
      cases reads' with
      | none => exact absurd takes (ends.not_option option found _)
      | next _ found' takes' later' =>
          cases found.symm.trans found'
          cases takes.symm.trans takes'
          exact inductionHypothesis fails later'

/-- What is given is marked itself. -/
theorem OptionWords.given_mem (reads : OptionWords lib ap words given rest) {g : Given}
    (member : g ∈ given) : (g.id, g.desc) ∈ ap.entries ∧ g.marked = g.id := by
  induction reads with
  | none => cases member
  | next _ found _ _ inductionHypothesis =>
      rcases List.mem_cons.mp member with rfl | member
      · exact ⟨List.mem_of_find?_eq_some found, rfl⟩
      · exact inductionHypothesis member

end options

/-! ## The loop for the options -/

section loop

variable {Double : Type} {lib : ArgLib Double} {ap : ArgParser} {argv : List CString}
  {words left : List CString} {given : List Given} {i : Nat}

/-- The loop is at a word that begins with a hyphen. -/
theorem parsePass_option {w : CString} (there : argv.drop (i + 1) = w :: words)
    (option : w.head? = some '-') (store : Store) :
    parsePass lib ap argv (.options i store) =
      continueWith (processOption lib ap argv i w store) := by
  have word : argv[i + 1]? = some w := by rw [← List.head?_drop, there, List.head?_cons]
  simp only [parsePass, word, if_pos option]

theorem drop_succ_of_drop {k : Nat} {w : CString} (there : argv.drop k = w :: words) :
    argv.drop (k + 1) = words ∧ k + 1 ≤ argv.length := by
  constructor
  · rw [← List.drop_drop, there, List.drop_one, List.tail_cons]
  · by_contra outside
    rw [List.drop_eq_nil_of_le (by omega)] at there
    cases there

/-- What happens at an option follows from the descriptor with its name. -/
theorem parsePass_named {w : CString} (there : argv.drop (i + 1) = w :: words)
    (option : w.head? = some '-') (ends : ¬ap.Overruns w) {id : DescId} {desc : ArgOption}
    (found : ap.named w = some (id, desc)) (goesOn : desc.type ≠ .endOptions)
    (store : Store) :
    parsePass lib ap argv (.options i store) =
      continueWith (do
        let (consumed, mem) <- assignArg lib desc store.mem argv i 1
        if consumed < 0 then .error .argdie
        else .ok (.options (i + consumed.toNat + 1) ((store.assign mem).mark id))) := by
  rw [parsePass_option there option, processOption, find_of_not_overruns ends, found]
  simp only [if_neg goesOn, bind, Except.bind]

theorem parsePass_overruns {w : CString} (there : argv.drop (i + 1) = w :: words)
    (option : w.head? = some '-') (overruns : ap.Overruns w) (store : Store) :
    parsePass lib ap argv (.options i store) = .done (.error .outOfBounds) := by
  rw [parsePass_option there option, processOption, find_of_overruns overruns]
  rfl

theorem parsePass_long {w : CString} (there : argv.drop (i + 1) = w :: words)
    (option : w.head? = some '-') (ends : ¬ap.Overruns w) {id : DescId} {desc : ArgOption}
    (found : ap.named w = some (id, desc)) (goesOn : desc.type ≠ .endOptions)
    (long : ¬desc.Printable) (store : Store) :
    parsePass lib ap argv (.options i store) = .done (.error desc.unprinted) := by
  rw [parsePass_named there option ends found goesOn, assignArg_eq, if_neg long]
  rfl

/-- The search for an option, or what follows it, goes beyond the names of a descriptor. -/
def ArgParser.Strays (ap : ArgParser) (w : CString) : Prop :=
  ap.Overruns w ∨
    exists id desc, ap.named w = some (id, desc) ∧ desc.type ≠ .endOptions ∧ desc.Unended

theorem parsePass_strays {w : CString} (there : argv.drop (i + 1) = w :: words)
    (option : w.head? = some '-') (strays : ap.Strays w) (store : Store) :
    parsePass lib ap argv (.options i store) = .done (.error .outOfBounds) := by
  by_cases overruns : ap.Overruns w
  · exact parsePass_overruns there option overruns store
  · rcases strays.resolve_left overruns with ⟨id, desc, found, goesOn, unended⟩
    rw [parsePass_long there option overruns found goesOn unended.not_printable,
      unended.unprinted_eq]

variable (lib ap words) in
/-- The loop comes to an option at which it goes beyond the names of a descriptor. -/
def OptionsOverrun : Prop :=
  exists given w rest, OptionWords lib ap words given (w :: rest) ∧ w.head? = some '-' ∧
    (forall g, g ∈ given -> g.desc.Printable) ∧ ap.Strays w

/-- The loop reads what can be read, unless the names of a descriptor end it before. -/
theorem OptionWords.outcome {rest : List CString} (reads : OptionWords lib ap words given rest)
    (there : argv.drop (i + 1) = words) (store : Store) :
    ((forall g, g ∈ given -> g.desc.Printable) ∧ exists i', argv.drop (i' + 1) = rest ∧
      Continues (parsePass lib ap argv) (.options i store)
        (.options i' (given.foldl (Store.take lib) store))) ∨
    ((exists g, g ∈ given ∧ ¬g.desc.Printable) ∧
      Returns (parsePass lib ap argv) (.options i store) (.error .die)) ∨
    (OptionsOverrun lib ap words ∧
      Returns (parsePass lib ap argv) (.options i store) (.error .outOfBounds)) := by
  induction reads generalizing i store with
  | none => exact Or.inl ⟨fun _ member => absurd member List.not_mem_nil, i, there, .refl _⟩
  | @next w words left given id desc n option found takes later inductionHypothesis =>
      rcases drop_succ_of_drop there with ⟨follow, inside⟩
      have goesOn : desc.type ≠ .endOptions := by
        intro ends
        simp only [taken, ends] at takes
        cases takes
      by_cases strays : ap.Strays w
      · exact Or.inr (Or.inr ⟨⟨[], w, words, .none _, option, by simp, strays⟩,
          .done (parsePass_strays there option strays store)⟩)
      have overruns : ¬ap.Overruns w := fun overruns => strays (Or.inl overruns)
      by_cases long : ¬desc.Printable
      · have pass := @parsePass_long _ lib _ _ _ _ _ there option overruns _ _ found goesOn long store
        rw [ArgOption.unprinted_eq long fun unended =>
          strays (Or.inr ⟨id, desc, found, goesOn, unended⟩)] at pass
        exact Or.inr (Or.inl ⟨⟨_, List.mem_cons_self, long⟩, .done pass⟩)
      rw [not_not] at long
      have assigns := @assignArg_of_assigned _ lib desc argv i 1 (i + 1 + 1) (by omega) inside
        store.mem n (by rw [follow]; exact assigned_eq_some.mpr ⟨long, takes⟩)
      rw [follow] at assigns
      have pass : parsePass lib ap argv (.options i store) =
          .again (.options (i + n + 1) (store.take lib ⟨id, desc, words, id⟩)) := by
        rw [parsePass_named there option overruns found goesOn]
        simp only [assigns, bind, Except.bind]
        rw [if_neg (by omega)]
        rfl
      have after : argv.drop (i + n + 1 + 1) = words.drop n := by
        rw [← follow, List.drop_drop]
        congr 1
        omega
      rcases inductionHypothesis after (store.take lib ⟨id, desc, words, id⟩) with
        ⟨printable, i', end', continues⟩ | ⟨⟨g, member, long'⟩, returns⟩ |
        ⟨⟨given', w', rest', reads', option', printable, strays'⟩, returns⟩
      · exact Or.inl ⟨List.forall_mem_cons.mpr ⟨long, printable⟩, i', end', .again pass continues⟩
      · exact Or.inr (Or.inl ⟨⟨g, List.mem_cons_of_mem _ member, long'⟩, .again pass returns⟩)
      · exact Or.inr (Or.inr ⟨⟨_, w', rest', .next option found takes reads', option',
          List.forall_mem_cons.mpr ⟨long, printable⟩, strays'⟩, .again pass returns⟩)

theorem OptionsOverrun.returns (overrun : OptionsOverrun lib ap words)
    (there : argv.drop (i + 1) = words) (store : Store) :
    Returns (parsePass lib ap argv) (.options i store) (.error .outOfBounds) := by
  rcases overrun with ⟨given, w, rest, reads, option, printable, strays⟩
  rcases reads.outcome there store with
    ⟨-, i', there', continues⟩ | ⟨⟨g, member, long⟩, -⟩ | ⟨-, returns⟩
  · exact continues.returns_iff.mpr (.done (parsePass_strays there' option strays _))
  · exact absurd (printable g member) long
  · exact returns

/-- From the end of the options the parse goes on with the positional arguments. -/
theorem OptionsEnd.continues {rest : List CString} {ended : List DescId}
    (ends : OptionsEnd ap rest ended left) (there : argv.drop (i + 1) = rest)
    (found : forall w, rest.head? = some w -> w.head? = some '-' -> ¬ap.Overruns w)
    (store : Store) :
    exists baseArg, argv.drop (baseArg + 1) = left ∧
      parsePass lib ap argv (.options i store) = .again (.start baseArg store) := by
  cases ends with
  | noOption other =>
      refine ⟨i, there, ?_⟩
      have word : argv[i + 1]? = left.head? := by rw [← List.head?_drop, there]
      cases next : left.head? with
      | none => simp only [parsePass, word, next]
      | some w => simp only [parsePass, word, next, if_neg (other w next)]
  | endOptions option named ends =>
      refine ⟨i + 1, (drop_succ_of_drop there).1, ?_⟩
      rw [parsePass_option there option, processOption,
        find_of_not_overruns (found _ rfl option), named]
      simp only [if_pos ends, bind, Except.bind]
      rfl

/-- The way to the positional arguments. -/
theorem OptionPart.outcome {ended : List DescId} (part : OptionPart lib ap words given ended left)
    (there : argv.drop (i + 1) = words) (store : Store) :
    ((forall g, g ∈ given -> g.desc.Printable) ∧ ¬OptionsOverrun lib ap words ∧
      exists baseArg, argv.drop (baseArg + 1) = left ∧
        Continues (parsePass lib ap argv) (.options i store)
          (.start baseArg (given.foldl (Store.take lib) store))) ∨
    ((exists g, g ∈ given ∧ ¬g.desc.Printable) ∧
      Returns (parsePass lib ap argv) (.options i store) (.error .die)) ∨
    (OptionsOverrun lib ap words ∧
      Returns (parsePass lib ap argv) (.options i store) (.error .outOfBounds)) := by
  by_cases overrun : OptionsOverrun lib ap words
  · exact Or.inr (Or.inr ⟨overrun, overrun.returns there store⟩)
  rcases part with ⟨rest, reads, ends⟩
  rcases reads.outcome there store with
    ⟨printable, i', there', continues⟩ | dies | ⟨overrun', -⟩
  · have found : forall w, rest.head? = some w -> w.head? = some '-' -> ¬ap.Overruns w := by
      intro w next option overruns
      rcases List.head?_eq_some_iff.mp next with ⟨rest', rfl⟩
      exact overrun ⟨given, w, rest', reads, option, printable, Or.inl overruns⟩
    rcases ends.continues there' found (given.foldl (Store.take lib) store) with
      ⟨baseArg, there'', pass⟩
    exact Or.inl ⟨printable, overrun, baseArg, there'', continues.trans (.again pass (.refl _))⟩
  · exact Or.inr (Or.inl dies)
  · exact absurd overrun' overrun

/-- An error in the options ends the program: with a message, unless the descriptor
does that. -/
theorem OptionsFail.returns (fails : OptionsFail lib ap words) (there : argv.drop (i + 1) = words)
    (found : forall w, words.head? = some w -> ¬ap.Strays w) (store : Store) :
    exists stop, stop ≠ .outOfBounds ∧
      Returns (parsePass lib ap argv) (.options i store) (.error stop) ∧
      ((forall w rest id desc, words = w :: rest -> ap.named w = some (id, desc) ->
        desc.type ≠ .endOptions -> assigned lib desc rest.head? ≠ none) -> stop = .argdie) := by
  rcases fails with ⟨w, rest, rfl, option, stuck⟩
  rcases drop_succ_of_drop there with ⟨follow, inside⟩
  have ends : ¬ap.Overruns w := fun overruns => found w rfl (Or.inl overruns)
  cases named : ap.named w with
  | none =>
      refine ⟨.argdie, by decide, .done ?_, fun _ => rfl⟩
      rw [parsePass_option there option, processOption, find_of_not_overruns ends, named]
      rfl
  | some entry =>
      rcases entry with ⟨id, desc⟩
      rcases stuck id desc named with ⟨goesOn, none⟩
      have pass := @parsePass_named _ lib ap _ _ _ _ there option ends id desc named goesOn store
      cases takes : assigned lib desc rest.head? with
      | none =>
          rcases @assignArg_of_none _ lib desc argv i 1 (i + 1 + 1) (by omega) inside
            store.mem (by rw [follow]; exact takes)
            (fun unended => found w rfl (Or.inr ⟨id, desc, named, goesOn, unended⟩)) with
            ⟨stop, inBounds, assigns⟩
          refine ⟨stop, inBounds, .done ?_, fun supported => ?_⟩
          · rw [pass]
            simp only [assigns, bind, Except.bind, continueWith]
          · exact absurd takes (supported w rest id desc rfl named goesOn)
      | some code =>
          have negative : code < 0 := by
            by_contra other
            refine none code.toNat ?_
            rw [(assigned_eq_some.mp takes).2, Int.toNat_of_nonneg (by omega)]
          have assigns := @assignArg_of_negative _ lib desc argv i 1 (i + 1 + 1) (by omega) inside
            store.mem code negative (by rw [follow]; exact takes)
          refine ⟨.argdie, by decide, .done ?_, fun _ => rfl⟩
          rw [pass]
          simp only [assigns, bind, Except.bind, if_pos negative, continueWith]

end loop

end Util
end Autolock
