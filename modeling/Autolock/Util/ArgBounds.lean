import Autolock.Util.ArgOptions

namespace Autolock
namespace Util

open Data

/-!
# When the parser ends within its bounds

The options are no danger as long as the names of the descriptors end.  The loop
for the positional arguments goes by what `assignArg` answers, which is not always
the one word of a positional argument: it is nothing for a descriptor without a
value, so that the loop goes on forever, and negative for a number of another
size, so that it goes back.  What follows the loop may come to names that do not
end again, those of a descriptor for the rest or those in the last message.
-/

/-! ## The descriptors that are left out -/

section marks

variable {Double : Type} {ap : ArgParser}

theorem mark_ne_one (r : BitVec 32) : r ||| r <<< 1 = 1 <-> False := by
  rw [iff_false]
  intro one
  have first := congrArg (fun v : BitVec 32 => v.getLsbD 0) one
  have second := congrArg (fun v : BitVec 32 => v.getLsbD 1) one
  simp at first second
  simp_all

theorem mark_required (store : Store) (marked id : DescId) :
    (store.mark marked).required id = 1 <-> store.required id = 1 ∧ marked ≠ id := by
  simp only [Store.mark]
  by_cases same : id = marked
  · subst same
    rw [Function.update_self, mark_ne_one]
    simp
  · rw [Function.update_of_ne same]
    exact (and_iff_left (Ne.symm same)).symm

theorem normalise_required {store : Store} {id : DescId} {desc : ArgOption}
    (entry : (id, desc) ∈ ap.entries) :
    (store.normalise ap).required id = 1 <-> store.required id ≠ 0 := by
  have there : exists entry, entry ∈ ap.entries ∧ entry.1 = id := ⟨_, entry, rfl⟩
  simp only [Store.normalise, there, true_and]
  by_cases zero : store.required id = 0
  · rw [if_neg (not_not.mpr zero), zero]
    decide
  · rw [if_pos zero]
    exact iff_of_true rfl zero

theorem foldl_take_required {lib : ArgLib Double} (all : List Given) (store : Store)
    (id : DescId) :
    (all.foldl (Store.take lib) store).required id = 1 <->
      store.required id = 1 ∧ forall g, g ∈ all -> g.marked ≠ id := by
  induction all generalizing store with
  | nil => simp
  | cons g all inductionHypothesis =>
      rw [List.foldl_cons, inductionHypothesis, List.forall_mem_cons, Store.take, mark_required,
        and_assoc]
      exact Iff.rfl

/-- These descriptors have been marked since the parse began with the first store. -/
def MarksAre (ap : ArgParser) (first store : Store) (marks : List DescId) : Prop :=
  forall entry, entry ∈ ap.entries ->
    (store.required entry.1 = 1 <-> first.required entry.1 ≠ 0 ∧ entry.1 ∉ marks)

variable {first store : Store} {marks : List DescId}

theorem marksAre_normalise (first : Store) : MarksAre ap first (first.normalise ap) [] := by
  intro entry member
  rw [normalise_required member]
  exact (and_iff_left List.not_mem_nil).symm

theorem MarksAre.mark (are : MarksAre ap first store marks) (mem : ByteMemory)
    (id : DescId) : MarksAre ap first ((store.assign mem).mark id) (marks ++ [id]) := by
  intro entry member
  have before := are entry member
  rw [mark_required, List.mem_append, List.mem_singleton, not_or, ← and_assoc, ← before]
  exact and_congr_right fun _ => ne_comm

theorem MarksAre.given (are : MarksAre ap first store marks) (lib : ArgLib Double)
    {given : List Given} (self : forall g, g ∈ given -> g.marked = g.id) :
    MarksAre ap first (given.foldl (Store.take lib) store) (marks ++ given.map Given.id) := by
  intro entry member
  rw [foldl_take_required, are entry member, List.mem_append, not_or, and_assoc]
  refine and_congr_right fun _ => and_congr_right fun _ => ?_
  rw [List.mem_map]
  constructor
  · rintro unmarked ⟨g, there, same⟩
    exact unmarked g there ((self g there).trans same)
  · intro unnamed g there same
    exact unnamed ⟨g, there, (self g there).symm.trans same⟩

/-- The first descriptor that is left out by the marks has names that the last message would go
beyond. -/
def MessageStrays (ap : ArgParser) (first : Store) (marks : List DescId) : Prop :=
  exists entry,
    ap.entries.find? (fun entry => first.required entry.1 ≠ 0 ∧ entry.1 ∉ marks) = some entry ∧
      entry.2.type ≠ .rest ∧ entry.2.type ≠ .endOptions ∧ entry.2.Unended

theorem arg2str_outOfBounds (desc : ArgOption) :
    arg2str desc = .error .outOfBounds <->
      desc.type ≠ .rest ∧ desc.type ≠ .endOptions ∧ desc.Unended := by
  unfold arg2str
  split
  · next type =>
      rw [iff_false_right fun both => both.1 type]
      split <;> simp
  · next type => exact iff_of_false (by simp) fun both => both.2.1 type
  · next noRest noEnd =>
      rw [concatArgs_eq]
      split
      · next printable =>
          exact iff_of_false (by simp) fun both => both.2.2.not_printable printable
      · next long =>
          constructor
          · intro same
            refine ⟨noRest, noEnd, ?_⟩
            by_contra ended
            rw [ArgOption.unprinted_eq long ended] at same
            cases same
          · rintro ⟨-, -, unended⟩
            rw [unended.unprinted_eq]

theorem checkRequired_inBounds (are : MarksAre ap first store marks) :
    checkRequired ap store ≠ .error .outOfBounds <-> ¬MessageStrays ap first marks := by
  have finds : ap.entries.find? (fun entry => store.required entry.1 = 1) =
      ap.entries.find? fun entry => first.required entry.1 ≠ 0 ∧ entry.1 ∉ marks := by
    rw [← List.head?_filter, ← List.head?_filter]
    exact congrArg List.head? (List.filter_congr fun entry member =>
      decide_eq_decide.mpr (are entry member))
  refine not_congr ?_
  unfold MessageStrays checkRequired
  rw [finds]
  cases ap.entries.find? fun entry => first.required entry.1 ≠ 0 ∧ entry.1 ∉ marks with
  | none => simp
  | some entry =>
      simp only [Option.some.injEq, exists_eq_left', ← arg2str_outOfBounds]
      cases arg2str entry.2 <;> simp [bind, Except.bind]

end marks

section positional

variable {Double : Type} {lib : ArgLib Double} {ap : ArgParser} {argv : List CString}
  {n : Nat} {defs : ArgDefs} {baseArg k : Nat} {desc : ArgOption} {word : CString}
  {left : List CString}

theorem taken_le_one {next : Option CString} {code : Int} (takes : taken lib desc next = some code) :
    code ≤ 1 := by
  unfold taken at takes
  split at takes
  case h_7 | h_9 | h_11 =>
    split at takes <;> cases takes <;> decide
  all_goals cases takes <;> decide

theorem assigned_le_one {next : Option CString} {code : Int}
    (takes : assigned lib desc next = some code) : code ≤ 1 :=
  taken_le_one (assigned_eq_some.mp takes).2

/-! ## One pass -/

theorem desc_of_args {j : Nat} (entry : defs.args[j]? = some desc) : defs.desc j = .ok desc := by
  have inside := (List.getElem?_eq_some_iff.mp entry).1
  rw [ArgDefs.desc, if_pos (by omega), Int.toNat_natCast, List.getD_eq_getElem?_getD, entry]
  rfl

theorem desc_outside {j : Int} (outside : j < 0) : defs.desc j = .error .outOfBounds :=
  if_neg (by omega)

theorem desc_mem {j : Int} (entry : defs.desc j = .ok desc) :
    desc ∈ defs.args ∨ desc = defs.last := by
  unfold ArgDefs.desc at entry
  split at entry
  · cases entry
    rw [List.getD_eq_getElem?_getD]
    cases found : defs.args[j.toNat]? with
    | none => exact Or.inr rfl
    | some desc => exact Or.inl (List.mem_of_getElem? found)
  · cases entry

theorem desc_inside {j : Int} (start : 0 ≤ j) (inside : j ≤ defs.args.length) :
    exists desc, defs.desc j = .ok desc :=
  ⟨_, if_pos ⟨start, inside⟩⟩

theorem left_getElem? (there : argv.drop (baseArg + 1) = left) :
    left[k]? = argv[baseArg + k + 1]? := by
  rw [← there, List.getElem?_drop]
  congr 1
  omega

theorem parsePass_positional (main : ap.mainParser = some (n, defs))
    (entry : defs.args[defs.baseDestOffset + k]? = some desc) (kind : desc.kind = .kindPositional)
    (there : argv.drop (baseArg + 1) = left) (next : left[k]? = some word)
    (store : Store) :
    parsePass lib ap argv (.positional baseArg k store) =
      continueWith (processPositional lib argv n defs desc baseArg k store) := by
  rw [left_getElem? there] at next
  have inside := (List.getElem?_eq_some_iff.mp next).1
  have found := desc_of_args entry
  rw [Int.natCast_add] at found
  simp only [parsePass, main, found]
  exact if_pos ⟨kind, by omega⟩

/-- The program ends at the next word. -/
theorem processPositional_ends (there : argv.drop (baseArg + 1) = left)
    (next : left[k]? = some word) (ends : assigned lib desc (some word) = none)
    (ended : ¬desc.Unended) (store : Store) :
    exists stop, stop ≠ .outOfBounds ∧
      processPositional lib argv n defs desc baseArg k store = .error stop := by
  rw [left_getElem? there] at next
  have inside := (List.getElem?_eq_some_iff.mp next).1
  rcases @assignArg_of_none _ lib desc argv (baseArg + k) 0 (baseArg + k + 1) (by omega) (by omega)
    store.mem
    (by rw [List.head?_drop, next]; exact ends) ended with ⟨stop, inBounds, assigns⟩
  refine ⟨stop, inBounds, ?_⟩
  simp only [processPositional, assigns, bind, Except.bind]

theorem processPositional_unended (unended : desc.Unended) (j : Int) (store : Store) :
    processPositional lib argv n defs desc baseArg j store = .error .outOfBounds := by
  rw [processPositional, assignArg_eq, if_neg unended.not_printable, unended.unprinted_eq]
  rfl

/-- What is assigned to a positional descriptor is the next word. -/
theorem processPositional_takes (there : argv.drop (baseArg + 1) = left)
    (next : left[k]? = some word) {code : Int} (takes : assigned lib desc (some word) = some code)
    (store : Store) :
    exists mem', processPositional lib argv n defs desc baseArg k store =
      (defs.desc (defs.baseDestOffset + (k + code))).map fun _ =>
        .positional baseArg (k + code)
          ((store.assign mem').mark (n, (defs.baseDestOffset + (k + code)).toNat)) := by
  rw [left_getElem? there] at next
  have inside := (List.getElem?_eq_some_iff.mp next).1
  have takes' : assigned lib desc (argv.drop (baseArg + k + 1)).head? = some code := by
    rw [List.head?_drop, next]
    exact takes
  have assigns : exists mem',
      assignArg lib desc store.mem argv (baseArg + k) 0 = .ok (code, mem') := by
    by_cases negative : code < 0
    · exact ⟨_, @assignArg_of_negative _ lib desc argv (baseArg + k) 0 (baseArg + k + 1) (by omega)
        (by omega) _ code negative takes'⟩
    · rcases Int.eq_ofNat_of_zero_le (Int.not_lt.mp negative) with ⟨m, rfl⟩
      exact ⟨_, @assignArg_of_assigned _ lib desc argv (baseArg + k) 0 (baseArg + k + 1) (by omega)
        (by omega) _ m takes'⟩
  rcases assigns with ⟨mem', assigns⟩
  refine ⟨mem', ?_⟩
  simp only [processPositional, assigns, bind, Except.bind]
  cases defs.desc (defs.baseDestOffset + ((k : Int) + code)) <;> rfl

/-! ## The end of the loop -/

/-- The entry that ends a table is of no other kind. -/
theorem desc_kind {j : Int} (entry : defs.desc j = .ok desc) (kind : desc.kind ≠ .kindEnd) :
    0 ≤ j ∧ j < defs.args.length := by
  unfold ArgDefs.desc at entry
  split at entry
  · rename_i inside
    refine ⟨inside.1, ?_⟩
    by_contra atEnd
    have index : j.toNat = defs.args.length := by omega
    rw [index, List.getD_eq_getElem?_getD, List.getElem?_eq_none (Nat.le_refl _)] at entry
    cases entry
    exact kind defs.last_kind
  · cases entry

variable (ap n defs left) in
/-- What follows the loop stays within its bounds, at a descriptor to which that much has been
marked before: a descriptor for the rest gets words of `argv`, and all names end. -/
def FinishesInBounds (skipped : Nat) (first : Store) (marks : List DescId) (j : Int)
    (desc : ArgOption) : Prop :=
  if desc.type = .character ∨ desc.type = .boolean ∧ j < left.length then True
  else if desc.type = .rest ∧ j < left.length then
    ¬desc.Unended ∧ (desc.Printable -> 0 ≤ skipped + j ∧ (desc.kind = .kindRest ->
      ¬MessageStrays ap first (marks ++ [(n, (defs.baseDestOffset + (j + 1)).toNat)])))
  else ¬MessageStrays ap first marks

theorem value_eq_positional (type : ArgType) :
    type.value = ArgKind.kindPositional.value <-> type = .character := by
  cases type <;> decide

theorem value_eq_end (type : ArgType) : type.value = ArgKind.kindEnd.value <-> type = .boolean := by
  cases type <;> decide

theorem finish_eq (j : Int) (desc : ArgOption) (store : Store) :
    finish lib ap argv n defs desc baseArg j store =
      if desc.type = .character then .error .argdie
      else if desc.type = .boolean ∧ baseArg + j + 1 < argv.length then .error .argdie
      else if desc.type = .rest ∧ baseArg + j + 1 < argv.length then do
        let (consumed, mem) <- assignArg lib desc store.mem argv (baseArg + j) 0
        let _ <- defs.desc (defs.baseDestOffset + (j + consumed))
        checkRequired ap ((store.assign mem).mark
          (n, (defs.baseDestOffset + (j + consumed)).toNat))
      else checkRequired ap store := by
  simp only [finish, value_eq_positional, value_eq_end]

section finish

variable {j : Int} {skipped : Nat} {first store : Store} {marks : List DescId}
  (entry : defs.desc (defs.baseDestOffset + j) = .ok desc)
  (more : baseArg + j + 1 < argv.length <-> j < left.length)
  (index : j < left.length -> (baseArg : Int) + 1 = skipped)
  (are : MarksAre ap first store marks)

include entry more index are

/-- A descriptor for the rest is assigned the words that are left. -/
theorem finishRest_inBounds (type : desc.type = .rest) (words : j < left.length) :
    finish lib ap argv n defs desc baseArg j store ≠ .error .outOfBounds <->
      ¬desc.Unended ∧ (desc.Printable -> 0 ≤ skipped + j ∧ (desc.kind = .kindRest ->
        ¬MessageStrays ap first (marks ++ [(n, (defs.baseDestOffset + (j + 1)).toNat)]))) := by
  rw [finish_eq, if_neg (by rw [type]; decide),
    if_neg (by rw [type]; exact fun both => absurd both.1 (by decide)),
    if_pos ⟨type, more.mpr words⟩, assignArg_eq]
  by_cases printable : desc.Printable
  · have ended : ¬desc.Unended := fun unended => unended.not_printable printable
    rw [if_pos printable]
    simp only [ended, printable, not_false_eq_true, true_and, forall_const]
    have start := index words
    by_cases inside : 0 ≤ baseArg + j + 1
    · have last := more.mpr words
      rcases Int.eq_ofNat_of_zero_le inside with ⟨k, index'⟩
      have word : exists word, (argv.drop k).head? = some word := by
        rw [List.head?_drop, List.getElem?_eq_getElem (by omega)]
        exact ⟨_, rfl⟩
      rcases word with ⟨word, next⟩
      have bound : 0 ≤ (skipped : Int) + j := by omega
      by_cases kind : desc.kind = .kindRest
      · have assigns := @assignValue_of_taken _ lib desc argv (baseArg + j) 0 k (by omega)
          (by omega) store.mem 1
          (by rw [next]; simp only [taken, type, if_pos kind]; rfl)
        have range := desc_kind entry (by rw [kind]; decide)
        rcases @desc_inside defs (defs.baseDestOffset + (j + 1)) (by omega) (by omega)
          with ⟨after, later⟩
        rw [Int.natCast_one] at assigns
        simp only [assigns, later, bind, Except.bind, bound, kind, forall_const, true_and]
        exact checkRequired_inBounds (are.mark _ _)
      · rcases @assignValue_of_none _ lib desc argv (baseArg + j) 0 k (by omega) (by omega)
          store.mem (by rw [next]; simp only [taken, type, if_neg kind]) with
          ⟨stop, inBounds, assigns⟩
        simp only [assigns, bind, Except.bind, bound, kind, false_implies, and_true, iff_true]
        exact fun same => inBounds (Except.error.inj same)
    · have access : argAt argv (baseArg + j + 0) = .error .outOfBounds := if_neg (by omega)
      have bound : ¬0 ≤ (skipped : Int) + j := by omega
      simp only [assignValue, type, access, bind, Except.bind, bound, false_and, iff_false]
      exact fun other => other rfl
  · rw [if_neg printable]
    simp only [printable, false_implies, and_true, bind, Except.bind]
    constructor
    · rintro inBounds unended
      exact inBounds (by rw [unended.unprinted_eq])
    · intro ended
      rw [ArgOption.unprinted_eq printable ended]
      exact fun same => Stop.noConfusion (Except.error.inj same)

theorem finish_inBounds :
    finish lib ap argv n defs desc baseArg j store ≠ .error .outOfBounds <->
      FinishesInBounds ap n defs left skipped first marks j desc := by
  unfold FinishesInBounds
  split
  · next complains =>
      refine iff_of_true (fun same => ?_) trivial
      rw [finish_eq] at same
      rcases complains with type | both
      · rw [if_pos type] at same
        cases same
      · rw [if_neg (by rw [both.1]; decide), if_pos ⟨both.1, more.mpr both.2⟩] at same
        cases same
  · next silent =>
      rw [not_or] at silent
      split
      · next rest => exact finishRest_inBounds entry more index are rest.1 rest.2
      · next noRest =>
          rw [finish_eq, if_neg silent.1, if_neg fun both => silent.2 ⟨both.1, more.mp both.2⟩,
            if_neg fun both => noRest ⟨both.1, more.mp both.2⟩]
          exact checkRequired_inBounds are

end finish

/-! ## The whole loop -/

theorem args_of_desc {j : Nat} (entry : defs.desc j = .ok desc) (kind : desc.kind ≠ .kindEnd) :
    defs.args[j]? = some desc := by
  have range := desc_kind entry kind
  unfold ArgDefs.desc at entry
  rw [if_pos (by omega), Int.toNat_natCast, List.getD_eq_getElem?_getD] at entry
  rw [List.getElem?_eq_getElem (by omega)] at entry ⊢
  exact congrArg some (Except.ok.inj entry)

/-- Before the positional arguments there is none. -/
theorem kind_before {j : Nat} (before : j < defs.baseDestOffset) (entry : defs.desc j = .ok desc) :
    desc.kind ≠ .kindPositional := by
  intro kind
  have found := args_of_desc entry (by rw [kind]; decide)
  have none := List.not_of_lt_findIdx before
  rcases List.getElem?_eq_some_iff.mp found with ⟨inside, same⟩
  rw [same, kind] at none
  exact absurd none (by decide)

theorem parsePass_finish (main : ap.mainParser = some (n, defs)) {j : Int}
    (entry : defs.desc (defs.baseDestOffset + j) = .ok desc)
    (noMore : ¬(desc.kind = .kindPositional ∧ baseArg + j + 1 < argv.length))
    (store : Store) :
    parsePass lib ap argv (.positional baseArg j store) =
      .done (finish lib ap argv n defs desc baseArg j store) := by
  simp only [parsePass, main, entry, if_neg noMore]

variable (lib defs left) in
/-- The first words are taken by one positional descriptor each. -/
def OneWordEach (k : Nat) : Prop :=
  forall i, i < k -> exists desc word, defs.args[defs.baseDestOffset + i]? = some desc ∧
    desc.kind = .kindPositional ∧ left[i]? = some word ∧ assigned lib desc (some word) = some 1

variable (n defs) in
/-- The marks that so many words leave, each behind the descriptor that it is assigned to. -/
def marksBehind (k : Nat) : List DescId :=
  (List.range k).map fun i => (n, defs.baseDestOffset + i + 1)

variable (lib n defs left) in
/-- Where the loop ends, and what it has marked: at a descriptor that is not positional or behind
the last word, or where an error code leads to, in front of the first positional descriptor. -/
inductive LoopEnds : Int -> List DescId -> Prop
  | all (k : Nat) (each : OneWordEach lib defs left k)
      (noMore : forall desc, defs.desc (defs.baseDestOffset + k) = .ok desc ->
        ¬(desc.kind = .kindPositional ∧ k < left.length)) :
      LoopEnds k (marksBehind n defs k)
  | back (k : Nat) (each : OneWordEach lib defs left k) (desc : ArgOption) (word : CString)
      (entry : defs.args[defs.baseDestOffset + k]? = some desc)
      (kind : desc.kind = .kindPositional) (next : left[k]? = some word) (code : Int)
      (takes : assigned lib desc (some word) = some code) (out : k + code < 0)
      (inside : 0 ≤ defs.baseDestOffset + (k + code)) :
      LoopEnds (k + code)
        (marksBehind n defs k ++ [(n, (defs.baseDestOffset + (k + code)).toNat)])

variable (lib ap n defs left) in
/-- The first positional descriptor that does not take one word ends the program, or
its error code leads to a descriptor before the first positional one.  And what follows the loop
stays within its bounds. -/
structure LeavesPositionals (skipped : Nat) (first : Store) (marks : List DescId) :
    Prop where
  loop : forall k desc word, OneWordEach lib defs left k ->
    defs.args[defs.baseDestOffset + k]? = some desc -> desc.kind = .kindPositional ->
    left[k]? = some word -> ¬desc.Unended ∧ forall code, assigned lib desc (some word) = some code ->
      code = 1 ∨ k + code < 0 ∧ 0 ≤ defs.baseDestOffset + (k + code)
  finish : forall j marks' desc, LoopEnds lib n defs left j marks' ->
    defs.desc (defs.baseDestOffset + j) = .ok desc ->
    FinishesInBounds ap n defs left skipped first (marks ++ marks') j desc

theorem OneWordEach.succ (each : OneWordEach lib defs left k)
    (entry : defs.args[defs.baseDestOffset + k]? = some desc) (kind : desc.kind = .kindPositional)
    (next : left[k]? = some word) (takes : assigned lib desc (some word) = some 1) :
    OneWordEach lib defs left (k + 1) := by
  intro i before
  rcases Nat.lt_succ_iff_lt_or_eq.mp before with less | rfl
  · exact each i less
  · exact ⟨desc, word, entry, kind, next, takes⟩

theorem marksBehind_succ (k : Nat) :
    marksBehind n defs (k + 1) =
      marksBehind n defs k ++ [(n, (defs.baseDestOffset + ((k : Int) + 1)).toNat)] := by
  have index : (defs.baseDestOffset + ((k : Int) + 1)).toNat = defs.baseDestOffset + k + 1 := by
    omega
  rw [marksBehind, List.range_succ, List.map_append, index]
  rfl

theorem left_length (there : argv.drop (baseArg + 1) = left) :
    left.length = argv.length - (baseArg + 1) := by
  rw [← there, List.length_drop]

section run

variable (main : ap.mainParser = some (n, defs)) (there : argv.drop (baseArg + 1) = left)

include main there

theorem parsePass_takes (entry : defs.args[defs.baseDestOffset + k]? = some desc)
    (kind : desc.kind = .kindPositional) (next : left[k]? = some word) {code : Int}
    (takes : assigned lib desc (some word) = some code)
    (inside : 0 ≤ defs.baseDestOffset + (k + code)) (store : Store) :
    exists mem', parsePass lib ap argv (.positional baseArg k store) =
      .again (.positional baseArg (k + code)
        ((store.assign mem').mark (n, (defs.baseDestOffset + (k + code)).toNat))) := by
  rcases @processPositional_takes _ lib argv n defs baseArg k desc word left there next code takes
    store with ⟨mem', result⟩
  have bound := assigned_le_one takes
  have before := (List.getElem?_eq_some_iff.mp entry).1
  rcases @desc_inside defs _ inside (by omega) with ⟨after, found⟩
  refine ⟨mem', ?_⟩
  rw [parsePass_positional main entry kind there next, result, found]
  rfl

omit main there in
/-- An error code leads to a descriptor in front of the positional ones. -/
theorem desc_back (entry : defs.args[defs.baseDestOffset + k]? = some desc) {code : Int}
    (takes : assigned lib desc (some word) = some code) (out : k + code < 0)
    (inside : 0 ≤ defs.baseDestOffset + (k + code)) :
    exists other, defs.desc (defs.baseDestOffset + (k + code)) = .ok other ∧
      other.kind ≠ .kindPositional := by
  have bound := assigned_le_one takes
  have before := (List.getElem?_eq_some_iff.mp entry).1
  rcases @desc_inside defs _ inside (by omega) with ⟨other, found⟩
  exact ⟨other, found, @kind_before defs other (defs.baseDestOffset + ((k : Int) + code)).toNat
    (by omega) (by rw [Int.toNat_of_nonneg inside]; exact found)⟩

variable {first : Store} {marks : List DescId}

/-- Where the loop ends, what follows decides. -/
theorem ends_inBounds {j : Int} (found : defs.desc (defs.baseDestOffset + j) = .ok desc)
    (noMore : ¬(desc.kind = .kindPositional ∧ baseArg + j + 1 < argv.length))
    (words : 0 ≤ j ∨ 0 < left.length) {store : Store} (are : MarksAre ap first store marks) :
    (exists result, Returns (parsePass lib ap argv) (.positional baseArg j store) result ∧
      result ≠ .error .outOfBounds) <->
        FinishesInBounds ap n defs left (argv.length - left.length) first marks j desc := by
  have length := left_length there
  have pass := @parsePass_finish _ lib ap argv n defs baseArg desc main j found noMore store
  simp only [returns_done_iff pass, exists_eq_left]
  exact finish_inBounds found (by omega) (by omega) are

/-- The words of these descriptors are passed. -/
theorem OneWordEach.continues (each : OneWordEach lib defs left k) {store : Store}
    (are : MarksAre ap first store marks) :
    exists store', MarksAre ap first store' (marks ++ marksBehind n defs k) ∧
      Continues (parsePass lib ap argv) (.positional baseArg 0 store)
        (.positional baseArg k store') := by
  induction k with
  | zero => exact ⟨store, by rwa [marksBehind, List.range_zero, List.map_nil, List.append_nil], .refl _⟩
  | succ k inductionHypothesis =>
      rcases inductionHypothesis fun i less => each i (Nat.lt_succ_of_lt less) with
        ⟨store', are', continues⟩
      rcases each k (Nat.lt_succ_self k) with ⟨desc, word, entry, kind, next, takes⟩
      rcases parsePass_takes main there entry kind next takes (by omega) store' with ⟨mem', pass⟩
      refine ⟨_, ?_, continues.trans (.again pass (.refl _))⟩
      rw [marksBehind_succ, ← List.append_assoc]
      exact are'.mark mem' _

/-- Words are passed until one ends the loop, or all are. -/
theorem positional_returns
    (leaves : LeavesPositionals lib ap n defs left (argv.length - left.length) first marks)
    (each : OneWordEach lib defs left k) {store : Store}
    (are : MarksAre ap first store (marks ++ marksBehind n defs k)) :
    exists result, Returns (parsePass lib ap argv) (.positional baseArg k store) result ∧
      result ≠ .error .outOfBounds := by
  have length := left_length there
  induction size : left.length - k using Nat.strongRecOn generalizing k store with
  | ind size' inductionHypothesis =>
      have range : defs.baseDestOffset + k ≤ defs.args.length := by
        rcases k with _ | k
        · exact List.findIdx_le_length
        · rcases each k (Nat.lt_succ_self k) with ⟨_, _, entry, -⟩
          exact (List.getElem?_eq_some_iff.mp entry).1
      rcases @desc_inside defs (defs.baseDestOffset + (k : Int)) (by omega) (by omega) with
        ⟨desc, found⟩
      by_cases more : desc.kind = .kindPositional ∧ (baseArg + k + 1 : Int) < argv.length
      · have entry : defs.args[defs.baseDestOffset + k]? = some desc :=
          args_of_desc (by exact_mod_cast found) (by rw [more.1]; decide)
        have word : exists word, left[k]? = some word := by
          rw [left_getElem? there, List.getElem?_eq_getElem (by omega)]
          exact ⟨_, rfl⟩
        rcases word with ⟨word, next⟩
        have before := (List.getElem?_eq_some_iff.mp next).1
        rcases leaves.loop k desc word each entry more.1 next with ⟨ended, leads⟩
        cases takes : assigned lib desc (some word) with
        | none =>
            rcases @processPositional_ends _ lib argv n defs baseArg k desc word left there next takes
              ended store with ⟨stop, inBounds, ends⟩
            refine ⟨.error stop, .done ?_, fun same => inBounds (Except.error.inj same)⟩
            rw [parsePass_positional main entry more.1 there next, ends]
            rfl
        | some code =>
            rcases leads code takes with rfl | ⟨out, inside⟩
            · rcases parsePass_takes main there entry more.1 next takes (by omega) store with
                ⟨mem', pass⟩
              have are' := are.mark mem' (n, (defs.baseDestOffset + ((k : Int) + 1)).toNat)
              rw [List.append_assoc, ← marksBehind_succ] at are'
              rcases inductionHypothesis _ (by omega) (each.succ entry more.1 next takes) are' rfl
                with ⟨result, returns, inBounds⟩
              exact ⟨result, .again pass returns, inBounds⟩
            · rcases parsePass_takes main there entry more.1 next takes inside store with
                ⟨mem', pass⟩
              rcases desc_back entry takes out inside with ⟨other, found', kind⟩
              have are' := are.mark mem' (n, (defs.baseDestOffset + ((k : Int) + code)).toNat)
              rw [List.append_assoc] at are'
              have ends := leaves.finish _ _ other
                (.back k each desc word entry more.1 next code takes out inside) found'
              rcases (ends_inBounds main there found' (fun both => kind both.1)
                (Or.inr (Nat.zero_lt_of_lt before)) are').mpr ends with ⟨result, returns, inBounds⟩
              exact ⟨result, .again pass returns, inBounds⟩
      · have ends := leaves.finish k _ desc (.all k each fun desc' found' both => by
          cases found.symm.trans found'
          exact more ⟨both.1, by omega⟩) found
        exact (ends_inBounds main there found more (Or.inl (Int.natCast_nonneg k)) are).mpr ends

/-- A loop that goes back to a positional descriptor does so forever. -/
theorem positional_diverges (each : OneWordEach lib defs left k)
    (entry : defs.args[defs.baseDestOffset + k]? = some desc) (kind : desc.kind = .kindPositional)
    (next : left[k]? = some word) {code : Int} (takes : assigned lib desc (some word) = some code)
    (back : code ≠ 1) (again : 0 ≤ k + code) (store : Store) :
    Diverges (parsePass lib ap argv) (.positional baseArg k store) := by
  have bound := assigned_le_one takes
  refine @diverges_of_invariant _ _ (parsePass lib ap argv) _
    (fun s => exists i : Nat, i ≤ k ∧ exists store : Store, s = .positional baseArg i store)
    ?_ ⟨k, Nat.le_refl k, store, rfl⟩
  rintro s ⟨i, le, store, rfl⟩
  rcases Nat.lt_or_eq_of_le le with less | rfl
  · rcases each i less with ⟨desc, word, entry, kind, next, takes⟩
    rcases parsePass_takes main there entry kind next takes (by omega) store with ⟨mem', pass⟩
    exact ⟨_, pass, i + 1, less, _, rfl⟩
  · rcases parsePass_takes main there entry kind next takes (by omega) store with ⟨mem', pass⟩
    have index : (i + code).toNat ≤ i := by omega
    refine ⟨_, pass, (i + code).toNat, index,
      (store.assign mem').mark (n, (defs.baseDestOffset + ((i : Int) + code)).toNat), ?_⟩
    rw [Int.toNat_of_nonneg again]

/-- A way out of the bounds or of the loop is as told. -/
theorem leavesPositionals_of_returns {store : Store} {result : Except Stop Store}
    (are : MarksAre ap first store marks)
    (returns : Returns (parsePass lib ap argv) (.positional baseArg 0 store) result)
    (inBounds : result ≠ .error .outOfBounds) :
    LeavesPositionals lib ap n defs left (argv.length - left.length) first marks := by
  have length := left_length there
  constructor
  · intro k desc word each entry kind next
    rcases each.continues main there are with ⟨store', -, continues⟩
    rw [continues.returns_iff] at returns
    have positional := @parsePass_positional _ lib _ argv _ _ _ _ _ _ _ main entry kind there next
      store'
    refine ⟨fun unended => ?_, fun code takes => ?_⟩
    · rw [processPositional_unended unended] at positional
      exact inBounds ((returns_done_iff positional).mp returns)
    · by_contra misfit
      rw [not_or] at misfit
      by_cases again : 0 ≤ k + code
      · have diverges := positional_diverges main there each entry kind next takes misfit.1 again store'
        exact not_diverges_iff.mpr ⟨result, returns⟩ diverges
      · rcases @processPositional_takes _ lib argv n defs baseArg k desc word left there next code
          takes store' with ⟨mem', result'⟩
        have outside : ¬0 ≤ defs.baseDestOffset + ((k : Int) + code) :=
          fun inside => misfit.2 ⟨by omega, inside⟩
        rw [result', desc_outside (by omega)] at positional
        exact inBounds ((returns_done_iff positional).mp returns)
  · intro j marks' desc ends found
    cases ends with
    | all k each noMore =>
        rcases each.continues main there are with ⟨store', are', continues⟩
        rw [continues.returns_iff] at returns
        exact (ends_inBounds main there found (fun both => noMore desc found ⟨both.1, by omega⟩)
          (Or.inl (Int.natCast_nonneg k)) are').mp ⟨result, returns, inBounds⟩
    | back k each other word entry kind next code takes out inside =>
        rcases each.continues main there are with ⟨store', are', continues⟩
        rcases parsePass_takes main there entry kind next takes inside store' with ⟨mem', pass⟩
        rcases desc_back entry takes out inside with ⟨other', found', kind'⟩
        cases found.symm.trans found'
        rw [continues.returns_iff, returns_again_iff pass] at returns
        have before := (List.getElem?_eq_some_iff.mp next).1
        have are'' := are'.mark mem' (n, (defs.baseDestOffset + ((k : Int) + code)).toNat)
        rw [List.append_assoc] at are''
        exact (ends_inBounds main there found (fun both => kind' both.1)
          (Or.inr (Nat.zero_lt_of_lt before)) are'').mp ⟨result, returns, inBounds⟩

theorem positional_inBounds {store : Store} (are : MarksAre ap first store marks) :
    (exists result, Returns (parsePass lib ap argv) (.positional baseArg 0 store) result ∧
      result ≠ .error .outOfBounds) <->
        LeavesPositionals lib ap n defs left (argv.length - left.length) first marks := by
  constructor
  · rintro ⟨result, returns, inBounds⟩
    exact leavesPositionals_of_returns main there are returns inBounds
  · intro leaves
    rw [← List.append_nil marks] at are
    exact positional_returns (k := 0) main there leaves
      (fun j less => absurd less (Nat.not_lt_zero j)) are

end run

end positional

/-! ## The whole parse -/

section bounded

variable {Double : Type} (lib : ArgLib Double) (ap : ArgParser) (argv : List CString)

/-- All loops end, and no access is out of bounds. -/
def Bounded (store : Store) : Prop :=
  exists result, ParseArguments lib ap argv store result ∧ result ≠ .error .outOfBounds

variable {lib ap argv}

theorem parsePass_start {n : Nat} {defs : ArgDefs} (main : ap.mainParser = some (n, defs))
    (baseArg : Nat) (store : Store) :
    parsePass lib ap argv (.start baseArg store) =
      if defs.start.Printable then .again (.positional baseArg 0 store)
      else .done (.error defs.start.unprinted) := by
  simp only [parsePass, startPositional, main, desc_start, concatArgs_eq, bind, Except.bind]
  by_cases printable : defs.start.Printable
  · simp only [if_pos printable, continueWith]
  · simp only [if_neg printable, continueWith]

/-- Behind the options the parse ends within its bounds if the names that it joins first end and,
if they fit, the loop is left. -/
theorem start_inBounds {baseArg : Nat} {left : List CString}
    (there : argv.drop (baseArg + 1) = left) {first store : Store} {marks : List DescId}
    (are : MarksAre ap first store marks) :
    (exists result, Returns (parsePass lib ap argv) (.start baseArg store) result ∧
      result ≠ .error .outOfBounds) <->
        forall n defs, ap.mainParser = some (n, defs) ->
          ¬defs.start.Unended ∧ (defs.start.Printable ->
            LeavesPositionals lib ap n defs left (argv.length - left.length) first marks) := by
  cases main : ap.mainParser with
  | none =>
      refine iff_of_true ⟨.error .die, .done ?_, by simp⟩ fun _ _ same => by cases same
      simp only [parsePass, startPositional, main, continueWith]
  | some node =>
      rcases node with ⟨n, defs⟩
      have pass := @parsePass_start _ lib ap argv n defs main baseArg store
      refine Iff.trans ?_ ⟨fun both n' defs' same => by cases same; exact both,
        fun all => all n defs rfl⟩
      by_cases start : defs.start.Printable
      · have ended : ¬defs.start.Unended := fun unended => unended.not_printable start
        rw [if_pos start] at pass
        simp only [returns_again_iff pass, ended, start, not_false_eq_true, true_and, forall_const]
        exact positional_inBounds main there are
      · rw [if_neg start] at pass
        simp only [returns_done_iff pass, exists_eq_left, start, false_implies, and_true]
        refine not_congr ⟨fun same => ?_, fun unended => by rw [unended.unprinted_eq]⟩
        by_contra ended
        rw [ArgOption.unprinted_eq start ended] at same
        cases same

theorem OptionPart.marksAre {words left : List CString} {given : List Given} {ended : List DescId}
    (part : OptionPart lib ap words given ended left) (store : Store) :
    MarksAre ap store (given.foldl (Store.take lib) (store.normalise ap)) (given.map Given.id) := by
  rcases part with ⟨rest, reads, -⟩
  exact (marksAre_normalise store).given lib fun g member => (reads.given_mem member).2

/-- The parser ends within its bounds exactly if no option leads beyond the names of
a descriptor and, unless names that do not fit end the program before, the loop for
the positional arguments is left and what follows stays within its bounds as well. -/
theorem parseArguments_bounded_iff (checked : checkArgParser ap = .ok ()) (store : Store) :
    Bounded lib ap argv store <->
      ¬OptionsOverrun lib ap (argv.drop 1) ∧
        forall given ended left n defs, OptionPart lib ap (argv.drop 1) given ended left ->
          ap.mainParser = some (n, defs) -> (forall g, g ∈ given -> g.desc.Printable) ->
          ¬defs.start.Unended ∧ (defs.start.Printable ->
            LeavesPositionals lib ap n defs left (argv.length - left.length) store
              (given.map Given.id)) := by
  simp only [Bounded, ParseArguments, checked]
  constructor
  · rintro ⟨result, returns, inBounds⟩
    have found : ¬OptionsOverrun lib ap (argv.drop 1) := fun overrun =>
      inBounds (returns.unique (overrun.returns rfl _))
    refine ⟨found, fun given ended left n defs part main printable => ?_⟩
    rcases part.outcome rfl (store.normalise ap) with
      ⟨-, -, baseArg, there, continues⟩ | ⟨⟨g, member, long⟩, -⟩ | ⟨overrun, -⟩
    · rw [continues.returns_iff] at returns
      exact (start_inBounds there (part.marksAre store)).mp ⟨result, returns, inBounds⟩ n defs main
    · exact absurd (printable g member) long
    · exact absurd overrun found
  · rintro ⟨found, leaves⟩
    rcases @optionWords_maximal _ lib ap (argv.drop 1) with ⟨given, rest, reads, ends | fails⟩
    · rcases ends with ⟨ended, left, ends⟩
      have part : OptionPart lib ap (argv.drop 1) given ended left := ⟨rest, reads, ends⟩
      rcases part.outcome rfl (store.normalise ap) with
        ⟨printable, -, baseArg, there, continues⟩ | ⟨-, dies⟩ | ⟨overrun, -⟩
      · simp only [continues.returns_iff]
        exact (start_inBounds there (part.marksAre store)).mpr fun n defs main =>
          leaves given ended left n defs part main printable
      · exact ⟨.error .die, dies, by simp⟩
      · exact absurd overrun found
    · rcases reads.outcome (i := 0) rfl (store.normalise ap) with
        ⟨printable, i, there, continues⟩ | ⟨-, dies⟩ | ⟨overrun, -⟩
      · have clear : forall w, rest.head? = some w -> ¬ap.Strays w := by
          rcases id fails with ⟨w, later, rfl, option, -⟩
          intro w' same strays
          cases same
          exact found ⟨given, _, later, reads, option, printable, strays⟩
        simp only [continues.returns_iff]
        rcases fails.returns there clear (given.foldl (Store.take lib) (store.normalise ap)) with
          ⟨stop, inBounds, returns, -⟩
        exact ⟨.error stop, returns, fun same => inBounds (Except.error.inj same)⟩
      · exact ⟨.error .die, dies, by simp⟩
      · exact absurd overrun found

end bounded

/-! ## A table with one positional descriptor -/

section positional

/-- A positional descriptor without a number. -/
def positionalOption (type : ArgType) : ArgOption where
  kind := .kindPositional
  type := type
  argsBegin := ["file".toList]
  dest := 0
  destSz := 8
  isUnsigned := false
  four := by decide

def helpOption : ArgOption where
  kind := .kindHelp
  type := .help
  argsBegin := ["-h".toList]
  dest := 0
  destSz := 0
  isUnsigned := false
  four := by decide

def endOption : ArgOption where
  kind := .kindEnd
  type := .endOptions
  argsBegin := [[]]
  dest := 0
  destSz := 0
  isUnsigned := false
  four := by decide

theorem endOption_kind : endOption.kind = .kindEnd := rfl

def positionalDefs (type : ArgType) : ArgDefs where
  args := [helpOption, positionalOption type]
  last := endOption
  args_kind := by
    intro desc member
    rcases List.mem_pair.mp member with rfl | rfl
    · decide
    · exact fun same => nomatch same
  last_kind := endOption_kind

def positionalParser (type : ArgType) : ArgParser :=
  ⟨[⟨true, positionalDefs type⟩]⟩

/-- No word is a number. -/
def noNumbers : ArgLib Unit where
  strtod word := ((), word)
  doubleBits _ := 0
  floatBits _ := 0
  word _ := 0
  words _ := 0

def emptyStore : Store where
  required _ := 0
  mem _ := 0

theorem optionPart_word (type : ArgType) :
    OptionPart noNumbers (positionalParser type) ["x".toList] [] [] ["x".toList] :=
  ⟨["x".toList], .none _, .noOption fun w same => by cases same; decide⟩

theorem mainParser_positional (type : ArgType) :
    (positionalParser type).mainParser = some (0, positionalDefs type) := rfl

theorem not_optionsOverrun_word (type : ArgType) :
    ¬OptionsOverrun noNumbers (positionalParser type) ["x".toList] := by
  rintro ⟨given, w, rest, reads, option, -⟩
  cases reads with
  | none => exact absurd option (by decide)
  | next option => exact absurd option (by decide)

theorem not_messageStrays_empty (ap : ArgParser) (marks : List DescId) :
    ¬MessageStrays ap emptyStore marks := by
  rintro ⟨entry, first, -⟩
  have required := List.find?_some first
  exact (of_decide_eq_true required).1 rfl

theorem parseArguments_bounded_string :
    Bounded noNumbers (positionalParser .string) ["prog".toList, "x".toList] emptyStore := by
  refine (parseArguments_bounded_iff rfl emptyStore).mpr ⟨not_optionsOverrun_word .string, ?_⟩
  intro given ended left n defs reads main _
  rcases reads.unique (optionPart_word .string) with ⟨-, -, rfl⟩
  cases (mainParser_positional .string).symm.trans main
  refine ⟨fun unended => unended.not_printable (by decide), fun _ => ⟨?_, ?_⟩⟩
  · intro k desc word each entry kind next
    rcases k with _ | k
    · cases entry
      cases next
      exact ⟨fun unended => unended.not_printable (by decide),
        fun code takes => Or.inl (Option.some.inj takes).symm⟩
    · cases next
  · intro j marks' desc ends entry
    have noRest : desc.type ≠ .rest := by
      rcases desc_mem entry with member | rfl
      · rcases List.mem_pair.mp member with rfl | rfl <;> decide
      · decide
    unfold FinishesInBounds
    split
    · trivial
    · rw [if_neg fun both => noRest both.1]
      exact not_messageStrays_empty _ _

/-- A positional descriptor that only sets its variable takes no word, again and again. -/
theorem positional_set_not_bounded :
    checkArgParser (positionalParser .set) = .ok () ∧
      ¬Bounded noNumbers (positionalParser .set) ["prog".toList, "x".toList] emptyStore := by
  refine ⟨rfl, ?_⟩
  rintro ⟨result, returns, -⟩
  change Returns (parsePass noNumbers (positionalParser .set) ["prog".toList, "x".toList])
    (ParseState.options 0 _) result at returns
  rcases @OptionPart.outcome _ _ _ ["prog".toList, "x".toList] _ _ _ 0 _ (optionPart_word .set) rfl
    (emptyStore.normalise (positionalParser .set)) with
    ⟨-, -, baseArg, there, continues⟩ | ⟨⟨g, member, -⟩, -⟩ | ⟨overrun, -⟩
  · have pass := @parsePass_start _ noNumbers _ ["prog".toList, "x".toList] 0 _
      (mainParser_positional .set) baseArg (emptyStore.normalise (positionalParser .set))
    rw [if_pos (by decide)] at pass
    rw [continues.returns_iff, List.foldl_nil, returns_again_iff pass] at returns
    have none : assigned noNumbers (positionalOption .set) (some "x".toList) = some 0 := rfl
    exact not_diverges_iff.mpr ⟨result, returns⟩
      (positional_diverges (k := 0) (mainParser_positional .set) there
        (fun j less => absurd less (Nat.not_lt_zero j)) rfl rfl rfl none (by decide) (by decide) _)
  · exact List.not_mem_nil member
  · exact not_optionsOverrun_word .set overrun

end positional

end Util
end Autolock
