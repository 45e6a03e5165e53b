import Autolock.Util.ArgBounds

namespace Autolock
namespace Util

open Data
open Data.ByteMemory (littleEndian_length)

/-!
# The command lines of a table

A command line consists of its options, a word for every positional descriptor and
words for the rest of them if there is a descriptor for these.  What is required is
marked as it is given, but the loop for the positional arguments marks the
descriptor behind the one that it has assigned.
-/

/-! ## The shape of a table -/

namespace ArgDefs

def positionals (defs : ArgDefs) : List ArgOption :=
  defs.args.filter fun desc => desc.kind = .kindPositional

def rests (defs : ArgDefs) : List ArgOption :=
  defs.args.filter fun desc => desc.kind = .kindRest

end ArgDefs

/-- An option, though it may be that for help. -/
def ArgOption.IsOption (desc : ArgOption) : Prop :=
  desc.kind = .kindOption ∨ desc.kind = .kindHelp

instance (desc : ArgOption) : Decidable desc.IsOption :=
  inferInstanceAs (Decidable (_ ∨ _))

/-- Options come before positional descriptors and these before those for the rest. -/
structure Ordered (args pre pos rests : List ArgOption) : Prop where
  all : args = pre ++ pos ++ rests
  options : forall desc, desc ∈ pre -> desc.IsOption
  positionals : forall desc, desc ∈ pos -> desc.kind = .kindPositional
  rests : forall desc, desc ∈ rests -> desc.kind = .kindRest

section ordered

variable {desc : ArgOption} {args pre pos rests : List ArgOption}

theorem Ordered.option (ordered : Ordered args pre pos rests) (option : desc.IsOption) :
    Ordered (desc :: args) (desc :: pre) pos rests where
  all := by rw [ordered.all, List.cons_append, List.cons_append]
  options := List.forall_mem_cons.mpr ⟨option, ordered.options⟩
  positionals := ordered.positionals
  rests := ordered.rests

theorem Ordered.positional (ordered : Ordered args [] pos rests)
    (positional : desc.kind = .kindPositional) : Ordered (desc :: args) [] (desc :: pos) rests where
  all := by rw [ordered.all, List.nil_append, List.nil_append, List.cons_append]
  options := ordered.options
  positionals := List.forall_mem_cons.mpr ⟨positional, ordered.positionals⟩
  rests := ordered.rests

theorem Ordered.rest (ordered : Ordered args [] [] rests) (rest : desc.kind = .kindRest) :
    Ordered (desc :: args) [] [] (desc :: rests) where
  all := by rw [ordered.all, List.nil_append, List.nil_append, List.nil_append]
  options := ordered.options
  positionals := ordered.positionals
  rests := List.forall_mem_cons.mpr ⟨rest, ordered.rests⟩

end ordered

/-- The states in which there is no option, or no positional descriptor, any more. -/
theorem checkArgDefFrom_ordered {main : Bool} {state : ArgKind} {args : List ArgOption} {help : Bool}
    (checked : checkArgDefFrom main state args = .ok help)
    (noEnd : forall desc, desc ∈ args -> desc.kind ≠ .kindEnd) :
    exists pre pos rests, Ordered args pre pos rests ∧ (2 ≤ state.value -> pre = []) ∧
      (3 ≤ state.value -> pos = []) := by
  induction args generalizing state help with
  | nil =>
      exact ⟨[], [], [], ⟨rfl, by simp, by simp, by simp⟩, fun _ => rfl, fun _ => rfl⟩
  | cons desc args inductionHypothesis =>
      rw [List.forall_mem_cons] at noEnd
      unfold checkArgDefFrom at checked
      split at checked
      · rename_i quirk
        rcases rest : checkArgDefFrom main state args with stop | help'
        · rw [rest] at checked
          cases checked
        · rcases inductionHypothesis rest noEnd.2 with ⟨pre, pos, rests, ordered, -, -⟩
          rw [quirk.2.1]
          refine ⟨_, _, _, ordered.option (Or.inr quirk.2.2), ?_, ?_⟩ <;> intro impossible
          · exact absurd impossible (by decide)
          · exact absurd impossible (by decide)
      split at checked
      · cases checked
      split at checked
      · cases checked
      rename_i later _
      rw [Nat.not_lt] at later
      rcases inductionHypothesis checked noEnd.2 with ⟨pre, pos, rests, ordered, noOption, noPositional⟩
      cases kind : desc.kind <;> rw [kind] at later noOption noPositional
      case kindEnd => exact absurd kind noEnd.1
      case kindOption =>
        refine ⟨_, _, _, ordered.option (Or.inl kind), ?_, ?_⟩ <;> intro impossible
        · exact absurd (Nat.le_trans impossible later) (by decide)
        · exact absurd (Nat.le_trans impossible later) (by decide)
      case kindHelp =>
        refine ⟨_, _, _, ordered.option (Or.inr kind), ?_, ?_⟩ <;> intro impossible
        · exact absurd (Nat.le_trans impossible later) (by decide)
        · exact absurd (Nat.le_trans impossible later) (by decide)
      case kindPositional =>
        cases noOption (by decide)
        exact ⟨_, _, _, ordered.positional kind, fun _ => rfl,
          fun impossible => absurd (Nat.le_trans impossible later) (by decide)⟩
      case kindRest =>
        cases noOption (by decide)
        cases noPositional (by decide)
        exact ⟨_, _, _, ordered.rest kind, fun _ => rfl, fun _ => rfl⟩

/-- Only a main table has others than options. -/
theorem checkArgDefFrom_options {state : ArgKind} {args : List ArgOption} {help : Bool}
    (checked : checkArgDefFrom false state args = .ok help)
    (noEnd : forall desc, desc ∈ args -> desc.kind ≠ .kindEnd) :
    forall desc, desc ∈ args -> desc.IsOption := by
  induction args generalizing state help with
  | nil => exact fun _ member => absurd member List.not_mem_nil
  | cons desc args inductionHypothesis =>
      rw [List.forall_mem_cons] at noEnd
      unfold checkArgDefFrom at checked
      split at checked
      · rename_i quirk
        rcases rest : checkArgDefFrom false state args with stop | help'
        · rw [rest] at checked
          cases checked
        · exact List.forall_mem_cons.mpr ⟨Or.inr quirk.2.2, inductionHypothesis rest noEnd.2⟩
      split at checked
      · cases checked
      split at checked
      · cases checked
      rename_i notMain
      refine List.forall_mem_cons.mpr ⟨?_, inductionHypothesis checked noEnd.2⟩
      simp only [and_true, not_or] at notMain
      cases kind : desc.kind with
      | kindOption => exact Or.inl kind
      | kindHelp => exact Or.inr kind
      | kindPositional => exact absurd kind notMain.1
      | kindRest => exact absurd kind notMain.2
      | kindEnd => exact absurd kind noEnd.1

/-- The parts of a table by their kinds. -/
theorem Ordered.parts {defs : ArgDefs} {pre pos rests : List ArgOption}
    (ordered : Ordered defs.args pre pos rests) :
    defs.positionals = pos ∧ defs.rests = rests ∧ defs.baseDestOffset = pre.length := by
  have noOption : forall desc, desc ∈ pre -> desc.kind ≠ .kindPositional ∧ desc.kind ≠ .kindRest := by
    intro desc member
    rcases ordered.options desc member with kind | kind <;> rw [kind] <;> decide
  refine ⟨?_, ?_, ?_⟩
  · rw [ArgDefs.positionals, ordered.all, List.filter_append, List.filter_append,
      List.filter_eq_nil_iff.mpr fun desc member => by simpa using (noOption desc member).1,
      List.filter_eq_self.mpr fun desc member => by simpa using ordered.positionals desc member,
      List.filter_eq_nil_iff.mpr fun desc member => by simp [ordered.rests desc member]]
    simp
  · rw [ArgDefs.rests, ordered.all, List.filter_append, List.filter_append,
      List.filter_eq_nil_iff.mpr fun desc member => by simpa using (noOption desc member).2,
      List.filter_eq_nil_iff.mpr fun desc member => by simp [ordered.positionals desc member],
      List.filter_eq_self.mpr fun desc member => by simpa using ordered.rests desc member]
    simp
  · have first : (pos ++ rests).findIdx (fun desc => desc.kind = .kindPositional ∨ desc.kind = .kindRest) = 0 := by
      cases all : pos ++ rests with
      | nil => rfl
      | cons desc later =>
          have member : desc ∈ pos ++ rests := by
            rw [all]
            exact List.mem_cons_self
          have kind : desc.kind = .kindPositional ∨ desc.kind = .kindRest :=
            (List.mem_append.mp member).imp (ordered.positionals desc) (ordered.rests desc)
          rw [List.findIdx_cons, decide_eq_true kind, cond_true]
    rw [ArgDefs.baseDestOffset, ordered.all, List.append_assoc, List.findIdx_append, first, if_neg]
    · exact Nat.zero_add _
    · intro found
      rcases List.findIdx_lt_length.mp found with ⟨desc, member, kind⟩
      exact (of_decide_eq_true kind).elim (noOption desc member).1 (noOption desc member).2

section nodes

variable {ap : ArgParser} {n : Nat} {defs : ArgDefs}

theorem checkNodes_ok {nodes : List ArgParserNode} {help : Bool} (checked : checkNodes nodes = .ok help)
    {node : ArgParserNode} (member : node ∈ nodes) :
    exists help', checkArgDef node.main node.parser = .ok help' := by
  induction nodes generalizing help with
  | nil => cases member
  | cons first nodes inductionHypothesis =>
      rw [checkNodes] at checked
      rcases here : checkArgDef first.main first.parser with stop | help'
      · rw [here] at checked
        cases checked
      · rcases later : checkNodes nodes with stop | help''
        · rw [here, later] at checked
          cases checked
        · rcases List.mem_cons.mp member with rfl | member
          · exact ⟨help', here⟩
          · exact inductionHypothesis later member

theorem mainParser_getElem? (main : ap.mainParser = some (n, defs)) :
    exists node : ArgParserNode, ap.parsers[n]? = some node ∧ node.parser = defs := by
  unfold ArgParser.mainParser at main
  rcases Option.map_eq_some_iff.mp main with ⟨⟨node, n'⟩, found, same⟩
  cases same
  exact ⟨node, List.mem_zipIdx_iff_getElem?.mp (List.mem_of_find?_eq_some found), rfl⟩

theorem mem_entries_iff {id : DescId} {desc : ArgOption} :
    (id, desc) ∈ ap.entries <->
      exists node : ArgParserNode, ap.parsers[id.1]? = some node ∧
        node.parser.args[id.2]? = some desc := by
  simp only [ArgParser.entries, List.mem_flatMap, List.mem_map, Prod.exists,
    List.mem_zipIdx_iff_getElem?]
  constructor
  · rintro ⟨node, n, there, desc', j, entry, same⟩
    cases same
    exact ⟨node, there, entry⟩
  · rintro ⟨node, there, entry⟩
    exact ⟨node, id.1, there, desc, id.2, entry, rfl⟩

theorem checkArgDef_ok (checked : checkArgParser ap = .ok ()) {node : ArgParserNode}
    (member : node ∈ ap.parsers) : exists help, checkArgDef node.main node.parser = .ok help := by
  unfold checkArgParser at checked
  rcases nodes : checkNodes ap.parsers with stop | help
  · rw [nodes] at checked
    cases checked
  · exact checkNodes_ok nodes member

/-- What the check makes of the main parser. -/
theorem mainParser_ordered (checked : checkArgParser ap = .ok ())
    (main : ap.mainParser = some (n, defs)) :
    exists pre, Ordered defs.args pre defs.positionals defs.rests ∧
      defs.baseDestOffset = pre.length := by
  rcases mainParser_getElem? main with ⟨node, there, rfl⟩
  rcases checkArgDef_ok checked (List.mem_of_getElem? there) with ⟨help, checked'⟩
  rcases checkArgDefFrom_ordered checked' node.parser.args_kind with ⟨pre, pos, rests, ordered, -⟩
  rcases ordered.parts with ⟨rfl, rfl, base⟩
  exact ⟨pre, ordered, base⟩

end nodes

/-! ## What a table supports -/

/-- A number for a destination of one of the sizes for its type. -/
def ArgOption.NumberSized (desc : ArgOption) : Prop :=
  desc.type = .integer ∧ (desc.destSz = 1 ∨ desc.destSz = 2 ∨ desc.destSz = 4 ∨ desc.destSz = 8) ∨
    desc.type = .float ∧ (desc.destSz = 4 ∨ desc.destSz = 8)

/-- A positional descriptor takes one word, a descriptor for the rest takes them all,
and an option has a type that is implemented. -/
def ArgOption.Supported (desc : ArgOption) : Prop :=
  match desc.kind with
  | .kindPositional => desc.type = .string ∨ desc.NumberSized
  | .kindRest => desc.type = .rest
  | _ => desc.type = .string ∨ desc.NumberSized ∨ desc.type = .increment ∨ desc.type = .set ∨
      desc.type = .toggle ∨ desc.type = .help ∨ desc.type = .endOptions

section supported

variable {Double : Type} {lib : ArgLib Double} {desc : ArgOption}

theorem NumberSized.taken (sized : desc.NumberSized) (word : CString) :
    taken lib desc (some word) = some 1 := by
  rcases sized with ⟨type, sizes⟩ | ⟨type, sizes⟩
  · have sizes' : forall negative v, storeInteger desc negative v ≠ .badSize := by
      intro negative v
      unfold storeInteger
      rcases sizes with size | size | size | size <;> rw [size] <;> simp
    have number : forall c : BitVec 64 × CString, (if c.2 = word then Conversion.unparseable
        else storeInteger desc (integerForm word).2 c.1) ≠ .badSize := by
      intro c
      split
      · simp
      · exact sizes' _ _
    have stored : convertInteger desc word ≠ .badSize := number _
    simp only [Util.taken, type, if_neg stored]
  · simp only [Util.taken, type, if_pos (Or.inr sizes.symm)]

theorem Supported.taken_positional (supported : desc.Supported) (kind : desc.kind = .kindPositional)
    (word : CString) : taken lib desc (some word) = some 1 := by
  simp only [ArgOption.Supported, kind] at supported
  rcases supported with type | sized
  · simp only [taken, type]
  · exact NumberSized.taken sized word

theorem Supported.type_positional (supported : desc.Supported) (kind : desc.kind = .kindPositional) :
    desc.type ≠ .character ∧ desc.type ≠ .boolean ∧ desc.type ≠ .rest := by
  simp only [ArgOption.Supported, kind] at supported
  rcases supported with type | ⟨type, -⟩ | ⟨type, -⟩ <;> rw [type] <;> decide

/-- No type but that of the help ends the program. -/
theorem Supported.taken_ne_none (supported : desc.Supported) (noHelp : desc.type ≠ .help)
    (goesOn : desc.type ≠ .endOptions) (next : Option CString) : taken lib desc next ≠ none := by
  have types : (desc.type = .rest ∧ desc.kind = .kindRest) ∨ desc.type = .string ∨ desc.NumberSized ∨
      desc.type = .increment ∨ desc.type = .set ∨ desc.type = .toggle := by
    cases kind : desc.kind <;> simp only [ArgOption.Supported, kind] at supported <;> tauto
  rcases types with ⟨type, kind⟩ | type | sized | type | type | type
  · cases next <;> simp [taken, type, kind]
  · cases next <;> simp [taken, type]
  · cases next with
    | none => rcases sized with ⟨type, -⟩ | ⟨type, -⟩ <;> simp [taken, type]
    | some word => simp [NumberSized.taken sized word]
  all_goals simp [taken, type]

end supported

/-! ## What a command line gives -/

/-- How many bytes there are in a destination, by its type. -/
def ArgOption.width (desc : ArgOption) : Nat :=
  match desc.type with
  | .string => 8
  | .rest => 16
  | .set => max 1 desc.destSz
  | _ => desc.destSz

section given

variable {Double : Type} (lib : ArgLib Double) (ap : ArgParser) (n : Nat) (defs : ArgDefs)

/-- A word for each positional descriptor, from an index on; it is the descriptor
behind it that is marked. -/
def positionalGiven : Nat -> List ArgOption -> List CString -> List Given
  | j, desc :: descs, word :: words =>
      ⟨(n, j), desc, word :: words, (n, j + 1)⟩ :: positionalGiven (j + 1) descs words
  | _, _, _ => []

/-- The rest of the words, if there are any, for the first descriptor for these. -/
def restGiven (j : Nat) : List ArgOption -> List CString -> List Given
  | desc :: _, word :: words => [⟨(n, j), desc, word :: words, (n, j + 1)⟩]
  | _, _ => []

/-- What is marked is behind the descriptors that are given a word. -/
theorem positionalGiven_marked {j : Nat} {descs : List ArgOption} {words : List CString}
    {id : DescId} :
    (exists g, g ∈ positionalGiven n j descs words ∧ g.marked = id) <->
      exists k, k < min descs.length words.length ∧ id = (n, j + k + 1) := by
  induction descs generalizing j words with
  | nil => simp [positionalGiven]
  | cons desc descs inductionHypothesis =>
      cases words with
      | nil => simp [positionalGiven]
      | cons word words =>
          simp only [positionalGiven, List.mem_cons, exists_eq_or_imp, inductionHypothesis,
            List.length_cons, Nat.add_min_add_right]
          constructor
          · rintro (rfl | ⟨k, less, rfl⟩)
            · exact ⟨0, Nat.succ_pos _, rfl⟩
            · exact ⟨k + 1, Nat.succ_lt_succ less, congrArg (Prod.mk n) (by omega)⟩
          · rintro ⟨_ | k, less, rfl⟩
            · exact Or.inl rfl
            · exact Or.inr ⟨k, Nat.lt_of_succ_lt_succ less, congrArg (Prod.mk n) (by omega)⟩

theorem restGiven_marked {j : Nat} {rests : List ArgOption} {words : List CString} {id : DescId} :
    (exists g, g ∈ restGiven n j rests words ∧ g.marked = id) <->
      rests ≠ [] ∧ words ≠ [] ∧ id = (n, j + 1) := by
  rcases rests with _ | ⟨desc, rests⟩
  · simp [restGiven]
  · rcases words with _ | ⟨word, words⟩
    · simp [restGiven]
    · simp [restGiven, eq_comm]

theorem restGiven_nil (j : Nat) (rests : List ArgOption) : restGiven n j rests [] = [] := by
  cases rests <;> rfl

/-- All that is given, in its order. -/
def allGiven (given : List Given) (left : List CString) : List Given :=
  given ++ positionalGiven n defs.baseDestOffset defs.positionals left ++
    restGiven n (defs.baseDestOffset + defs.positionals.length) defs.rests
      (left.drop defs.positionals.length)

/-- How many of the positional descriptors and of those for the rest get words. -/
def served (left : List CString) : Nat :=
  min (defs.positionals.length + min 1 defs.rests.length) left.length

/-- The required descriptors that are neither named among the options nor behind one
that gets words. -/
def leftOut (store : Store) (given : List Given) (left : List CString) :
    List (DescId × ArgOption) :=
  ap.entries.filter fun entry =>
    store.required entry.1 ≠ 0 ∧ entry.1 ∉ given.map Given.id ∧
      entry.1 ∉ marksBehind n defs (served defs left)

/-- A parser with one main table, whose positional descriptors are all required. -/
structure MainTable (store : Store) : Prop where
  checked : checkArgParser ap = .ok ()
  main : ap.mainParser = some (n, defs)
  only : forall m node, ap.parsers[m]? = some node -> node.main = true -> m = n
  supported : forall id desc, (id, desc) ∈ ap.entries -> desc.Supported
  required : forall j desc, defs.args[j]? = some desc -> desc.kind = .kindPositional ->
    store.required (n, j) ≠ 0

/-- All options that are required are among these. -/
def RequiredAmong (store : Store) (ids : List DescId) : Prop :=
  forall id desc, (id, desc) ∈ ap.entries -> desc.IsOption -> store.required id ≠ 0 -> id ∈ ids

/-- Known options with their words and all that are required among them, a word for
every positional descriptor, and more only if there is a descriptor for the rest. -/
structure InGrammar (store : Store) (words : List CString) (given : List Given)
    (ended : List DescId) (left : List CString) : Prop where
  reads : OptionPart lib ap words given ended left
  options : forall g, g ∈ given -> g.desc.IsOption
  required : RequiredAmong ap store (given.map Given.id ++ ended)
  positionals : left.length = defs.positionals.length ∨
    defs.positionals.length < left.length ∧ defs.rests ≠ []

/-- The memory after all that is given has been converted, in its order. -/
def convertedAll (all : List Given) (mem : ByteMemory) : ByteMemory :=
  all.foldl (fun mem g => converted lib g.desc g.words mem) mem

/-- What a descriptor is given, as often as it is. -/
def ownOf (all : List Given) (id : DescId) : List Given :=
  all.filter fun g => g.id = id

/-- What is in the destination of a descriptor. -/
def destOf (desc : ArgOption) (mem : ByteMemory) : List UInt8 :=
  mem.read desc.dest desc.width

/-- The parse returns for exactly the command lines of the grammar, with the
destination of each given descriptor holding what its own words convert to, and ends
with a message for others. -/
def AcceptsGrammar (argv : List CString) (store : Store) : Prop :=
  (forall given ended left, InGrammar lib ap defs store (argv.drop 1) given ended left ->
    exists result, ParseArguments lib ap argv store (.ok result) ∧
      forall g, g ∈ allGiven n defs given left ->
        destOf g.desc result.mem =
          destOf g.desc (convertedAll lib (ownOf (allGiven n defs given left) g.id) store.mem)) ∧
  ((forall given ended left, ¬InGrammar lib ap defs store (argv.drop 1) given ended left) ->
    ParseArguments lib ap argv store (.error .argdie))

/-- The options of a command line have that for help among them. -/
def HelpGiven (words : List CString) : Prop :=
  exists given w rest id desc, OptionWords lib ap words given (w :: rest) ∧ w.head? = some '-' ∧
    ap.named w = some (id, desc) ∧ desc.type = .help

/-! ## When the grammar is accepted -/

/-- Every option that the loop comes to is found, and its names can be joined. -/
def OptionsPrintable (words : List CString) : Prop :=
  forall given w rest, OptionWords lib ap words given (w :: rest) -> w.head? = some '-' ->
    ¬ap.Overruns w ∧ forall id desc, ap.named w = some (id, desc) -> desc.type ≠ .endOptions ->
      desc.Printable

/-- So can those of the first positional descriptor and of all that get words. -/
def WordsPrintable (left : List CString) : Prop :=
  defs.start.Printable ∧ (forall desc, desc ∈ defs.positionals.take left.length -> desc.Printable) ∧
    (defs.positionals.length < left.length ->
      forall desc, defs.rests.head? = some desc -> desc.Printable)

/-- The type of the entry that ends the table is taken for a kind. -/
def EndComplains (left : List CString) : Prop :=
  defs.rests = [] ∧ (defs.last.type = .character ∧ defs.positionals.length ≤ left.length ∨
    defs.last.type = .boolean ∧ defs.positionals.length < left.length)

/-- The entry that ends the table is taken for one for the rest of the words. -/
def EndDies (left : List CString) : Prop :=
  defs.rests = [] ∧ defs.last.type = .rest ∧ defs.positionals.length < left.length

/-- The message of the last check can be made, if the parse comes to it. -/
def MessagePrintable (store : Store) (given : List Given) (left : List CString) : Prop :=
  EndComplains defs left ∨ forall entry, (leftOut ap n defs store given left).head? = some entry ->
    arg2str entry.2 = .ok ()

/-- All that is given leaves in each destination what its own words alone would leave. -/
def DestsAgree (mem : ByteMemory) (all : List Given) : Prop :=
  forall g, g ∈ all -> destOf g.desc (convertedAll lib all mem) =
    destOf g.desc (convertedAll lib (ownOf all g.id) mem)

/-- The destinations of two descriptors do not overlap. -/
def ArgOption.Apart (desc desc' : ArgOption) : Prop :=
  desc.dest + desc.width ≤ desc'.dest ∨ desc'.dest + desc'.width ≤ desc.dest

/-- The cases in which a command line is treated as the grammar has it. -/
def TreatedAsSaid (store : Store) (given : List Given) (ended : List DescId)
    (left : List CString) : Prop :=
  -- A word with a hyphen names a positional descriptor or one for the rest.
  if exists g, g ∈ given ∧ ¬g.desc.IsOption then
    EndComplains defs left ∨ leftOut ap n defs store given left ≠ [] ∧ ¬EndDies defs left
  -- There are positional descriptors; nothing is accepted.
  else if defs.positionals ≠ [] then
    (¬RequiredAmong ap store (given.map Given.id ++ ended) ∨
      left.length < defs.positionals.length ∨
      defs.rests = [] ∧ defs.positionals.length < left.length) ∧ ¬EndDies defs left
  -- There are none, but descriptors for the rest; two of these may be marked.
  else if defs.rests ≠ [] then
    ¬RequiredAmong ap store (given.map Given.id ++ ended) ∨
      RequiredAmong ap store (given.map Given.id) ∧
        (forall k desc, defs.rests[k]? = some desc ->
          store.required (n, defs.baseDestOffset + k) ≠ 0 -> k = 1 ∧ left ≠ []) ∧
        DestsAgree lib store.mem (allGiven n defs given left)
  -- There are only options, and no other words ...
  else if left = [] then
    ¬RequiredAmong ap store (given.map Given.id ++ ended) ∨
      RequiredAmong ap store (given.map Given.id) ∧ defs.last.type ≠ .character ∧
        DestsAgree lib store.mem (allGiven n defs given left)
  -- ... or others, which do not belong to the grammar.
  else
    defs.last.type = .character ∨ defs.last.type = .boolean ∨
      defs.last.type ≠ .rest ∧ ¬RequiredAmong ap store (given.map Given.id)

end given

/-! ## Destinations that do not overlap -/

section apart

variable {Double : Type} {lib : ArgLib Double} {desc : ArgOption} {mem mem' : ByteMemory}

theorem storedBytes_length_le (words : List CString) (mem : ByteMemory) :
    (storedBytes lib desc words mem).length ≤ desc.width := by
  unfold storedBytes ArgOption.width
  cases type : desc.type <;> cases words <;>
    simp only [ArgLib.restBytes, List.length_append, List.length_cons, List.length_replicate,
      List.length_nil, littleEndian_length, Nat.zero_le, Nat.le_refl]
  case integer.cons =>
    split
    · rw [littleEndian_length]
    · exact Nat.zero_le _
  case float.cons =>
    split
    · exact Nat.zero_le _
    · split
      · next double => rw [littleEndian_length, double]
      · split
        · next single => rw [littleEndian_length, single]
        · exact Nat.zero_le _
  all_goals omega

/-- What is stored depends on the destination alone. -/
theorem storedBytes_congr (same : destOf desc mem = destOf desc mem') (words : List CString) :
    storedBytes lib desc words mem = storedBytes lib desc words mem' := by
  have number : desc.width = desc.destSz ->
      mem.readNat desc.dest desc.destSz = mem'.readNat desc.dest desc.destSz := by
    intro size
    rw [destOf, destOf, size] at same
    exact congrArg ByteMemory.value same
  unfold storedBytes
  split
  case h_1 type => rw [number (by rw [ArgOption.width, type])]
  case h_3 type => rw [number (by rw [ArgOption.width, type])]
  all_goals rfl

theorem destOf_converted_self (same : destOf desc mem = destOf desc mem') (words : List CString) :
    destOf desc (converted lib desc words mem) = destOf desc (converted lib desc words mem') := by
  rw [converted, converted, storedBytes_congr same]
  exact ByteMemory.read_write_congr same

theorem destOf_converted_apart {desc' : ArgOption} (apart : desc.Apart desc')
    (words : List CString) (mem : ByteMemory) :
    destOf desc (converted lib desc' words mem) = destOf desc mem := by
  have length := @storedBytes_length_le _ lib desc' words mem
  refine ByteMemory.read_write_of_outside ?_
  unfold ArgOption.Apart at apart
  omega

/-- The other descriptors leave a destination as it is. -/
theorem destOf_convertedAll {id : DescId} {all : List Given}
    (apart : forall g, g ∈ all -> g.id = id ∧ g.desc = desc ∨ desc.Apart g.desc)
    (same : destOf desc mem = destOf desc mem') :
    destOf desc (convertedAll lib all mem) = destOf desc (convertedAll lib (ownOf all id) mem') := by
  induction all generalizing mem mem' with
  | nil => exact same
  | cons g all inductionHypothesis =>
      rw [List.forall_mem_cons] at apart
      by_cases own : g.id = id
      · have filtered : ownOf (g :: all) id = g :: ownOf all id :=
          List.filter_cons_of_pos (decide_eq_true own)
        rw [filtered]
        refine inductionHypothesis apart.2 ?_
        rcases apart.1 with ⟨-, rfl⟩ | apart
        · exact destOf_converted_self same g.words
        · rw [destOf_converted_apart apart, destOf_converted_apart apart, same]
      · have filtered : ownOf (g :: all) id = ownOf all id :=
          List.filter_cons_of_neg (by simp [own])
        rw [filtered]
        refine inductionHypothesis apart.2 ?_
        have apart' := apart.1.resolve_left fun both => own both.1
        rw [destOf_converted_apart apart', same]

/-- Destinations that do not overlap agree. -/
theorem destsAgree_of_apart {all : List Given}
    (apart : forall g, g ∈ all -> forall g', g' ∈ all ->
      g'.id = g.id ∧ g'.desc = g.desc ∨ g.desc.Apart g'.desc) : DestsAgree lib mem all :=
  fun g member => destOf_convertedAll (apart g member) rfl

end apart

end Util
end Autolock
